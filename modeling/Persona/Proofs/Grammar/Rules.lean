import Persona.Proofs.Grammar.Reads

/-!
# Reading back the parts of a personality

For each part of a personality, the parser of that part reads the tokens it is
printed as and gives the part back. A part that ends with a number needs to know
that no operator follows, and a list of modifiers that no comma does; everything
else may stand in front of anything.
-/

namespace Persona.Grammar

open Grammar.Parser
open Spelling (word quoted fixed named call part)

variable {rest : List Spelling}

/-- A circumstance is read back. -/
theorem context_reads (c : Context) : Reads context 2 (c.spelling ++ rest) (· = c) rest := by
  cases c
  case topic value =>
    exact Reads.atToken fun _ _ => Reads.bind Reads.advance fun _ _ => Reads.pure rfl
  all_goals
    refine Reads.atToken fun _ _ => Reads.bind (Reads.peek 1) fun following next => ?_
    rw [if_pos (by simp [next.kind, nextKind, fixed])]
    refine Reads.bind Reads.advance fun _ _ => Reads.bind Reads.advance fun _ _ =>
      Reads.andThen (string_reads _) ?_
    exact Reads.pure rfl

/-- A circumstance that is there is read back between parentheses. -/
theorem circumstance_reads {context : Option Context}
    (present : Present Context.Printable context) :
    Reads (parenthesized Grammar.context) 2
      (fixed .parenOpen :: (part Context.spelling context ++ fixed .parenClose :: rest))
      (fun c => some c = context) rest := by
  obtain ⟨c, rfl, -⟩ := present
  exact Reads.parenthesized ((context_reads c).imp fun _ same => congrArg some same)

/-- A modifier is read back. -/
theorem modifier_reads {m : Modifier} (printable : m.Printable) :
    Reads modifier 2 (m.spelling ++ rest) (· = m) rest := by
  cases m with
  | decay rate unit =>
    obtain ⟨finite, listed⟩ := printable
    have unitNamed := (ofWord?_unit listed).1
    have ends : EndsNumber (fixed .divide :: word unit.text :: fixed .parenClose :: rest) :=
      .inr ⟨unit.text, _, rfl, by rw [unitNamed]; rfl⟩
    have spelled : (Modifier.decay rate unit).spelling ++ rest =
        word "decay" :: fixed .parenOpen ::
        (Spelling.number rate ++ fixed .divide :: word unit.text :: fixed .parenClose ::
          rest) := by
      simp [Modifier.spelling, call]
    rw [spelled]
    refine Reads.atToken fun _ _ => Reads.bind Reads.advance fun _ _ => Reads.parenthesized ?_
    refine Reads.andThen (number_reads finite ends) ?_
    refine Reads.bind Reads.expect fun _ _ => Reads.andThen (timeUnit_reads unitNamed) ?_
    exact Reads.pure rfl
  | «when» context =>
    have spelled : (Modifier.when context).spelling ++ rest =
        fixed .when :: fixed .parenOpen ::
        (part Context.spelling context ++ fixed .parenClose :: rest) := by
      simp [Modifier.spelling, call]
    rw [spelled]
    refine Reads.atToken fun _ _ => Reads.bind Reads.advance fun _ _ =>
      Reads.bind (circumstance_reads printable) ?_
    rintro c rfl
    exact Reads.pure rfl
  | «unless» context =>
    have spelled : (Modifier.unless context).spelling ++ rest =
        word "unless" :: fixed .parenOpen ::
        (part Context.spelling context ++ fixed .parenClose :: rest) := by
      simp [Modifier.spelling, call]
    rw [spelled]
    refine Reads.atToken fun _ _ => Reads.bind Reads.advance fun _ _ =>
      Reads.bind (circumstance_reads printable) ?_
    rintro c rfl
    exact Reads.pure rfl
  | amplifies target factor =>
    have spelled : (Modifier.amplifies target factor).spelling ++ rest =
        word "amplifies" :: fixed .parenOpen ::
        named target :: fixed .comma :: (Spelling.number factor ++ fixed .parenClose ::
          rest) := by
      simp [Modifier.spelling, call]
    rw [spelled]
    refine Reads.atToken fun _ _ => Reads.bind Reads.advance fun _ _ => Reads.parenthesized ?_
    refine Reads.andThen (name_reads "trait" target) ?_
    refine Reads.bind Reads.expect fun _ _ =>
      Reads.andThen (number_reads printable.2 (.inl rfl)) ?_
    exact Reads.pure rfl
  | transformsTo target factor n =>
    obtain ⟨-, finite, counts⟩ := printable
    have spelled : (Modifier.transformsTo target factor n).spelling ++ rest =
        word "transforms_to" ::
        fixed .parenOpen :: named target :: fixed .comma ::
          (Spelling.number factor ++ fixed .comma ::
          (Spelling.count n ++ fixed .parenClose :: rest)) := by
      simp [Modifier.spelling, call]
    rw [spelled]
    refine Reads.atToken fun _ _ => Reads.bind Reads.advance fun _ _ => Reads.parenthesized ?_
    refine Reads.andThen (name_reads "trait" target) ?_
    refine Reads.bind Reads.expect fun _ _ => Reads.andThen (number_reads finite (.inl rfl)) ?_
    refine Reads.bind Reads.expect fun _ _ => Reads.andThen (count_reads counts (.inl rfl)) ?_
    exact Reads.pure rfl

/-- Modifiers with commas between them are read back, up to something other
than a comma. -/
theorem modifiersWithin_reads {ms : List Modifier} (some : ms ≠ [])
    (printable : ∀ m ∈ ms, m.Printable)
    {fuel : Nat} (enough : ms.length ≤ fuel) (stops : nextKind rest ≠ .comma) :
    Reads (modifiersWithin fuel) 2 (Spelling.join .comma (ms.map Modifier.spelling) ++ rest)
      (· = ms) rest := by
  induction ms generalizing fuel with
  | nil => exact absurd rfl some
  | cons m others inductionHypothesis =>
    obtain ⟨fuel, rfl⟩ :=
      Nat.exists_eq_add_one_of_ne_zero (Nat.ne_of_gt (Nat.zero_lt_of_lt enough))
    have first := printable m List.mem_cons_self
    cases others with
    | nil =>
      refine Reads.andThen (modifier_reads first) ?_
      refine Reads.andThen (Reads.check .comma) ?_
      rw [if_neg (by simpa using stops)]
      exact Reads.pure rfl
    | cons next others =>
      have spelled : Spelling.join .comma ((m :: next :: others).map Modifier.spelling) ++
          rest =
          m.spelling ++ fixed .comma ::
            (Spelling.join .comma ((next :: others).map Modifier.spelling) ++ rest) := by
        simp [Spelling.join]
      have more := inductionHypothesis (by simp) (fun m member =>
        printable m (List.mem_cons_of_mem _ member))
        (Nat.le_of_succ_le_succ enough)
      rw [spelled]
      refine Reads.andThen (modifier_reads first) ?_
      refine Reads.andThen (Reads.check .comma) ?_
      rw [if_pos (by rfl)]
      refine Reads.bind Reads.advance fun _ _ => Reads.bind more ?_
      rintro _ rfl
      exact Reads.pure rfl

/-- A modifier spells at least one token. -/
theorem modifier_spelling_length (m : Modifier) : 0 < m.spelling.length := by
  cases m <;> simp [Modifier.spelling, call]

/-- Joined parts are at least as many tokens as there are parts. -/
theorem length_join (separator : Kind) {parts : List (List Spelling)}
    (some : ∀ part ∈ parts, 0 < part.length) :
    parts.length ≤ (Spelling.join separator parts).length := by
  induction parts with
  | nil => simp
  | cons part parts inductionHypothesis =>
    have first := some part List.mem_cons_self
    have others := inductionHypothesis fun other member =>
      some other (List.mem_cons_of_mem _ member)
    cases parts with
    | nil => exact first
    | cons next parts =>
      simp only [Spelling.join, List.length_append, List.length_cons] at others ⊢
      omega

/-- Parts that are all there are a list of values. -/
theorem present_all {α : Type} {condition : α → Prop} {parts : List (Option α)}
    (present : ∀ x ∈ parts, Present condition x) :
    ∃ values : List α, parts = values.map some ∧ ∀ x ∈ values, condition x := by
  induction parts with
  | nil => exact ⟨[], rfl, by simp⟩
  | cons x parts inductionHypothesis =>
    obtain ⟨value, rfl, holds⟩ := present x List.mem_cons_self
    obtain ⟨values, rfl, allHold⟩ := inductionHypothesis fun y member =>
      present y (List.mem_cons_of_mem _ member)
    exact ⟨value :: values, rfl, by simpa using ⟨holds, allHold⟩⟩

/-- A trait is read back, up to something that is neither an operator, a comma nor the
word that announces modifiers. -/
theorem trait_reads {t : Trait} (printable : t.Printable)
    (ends : bindingPower (nextKind rest) = 0)
    (noComma : nextKind rest ≠ .comma) (noWith : nextKind rest ≠ .with) :
    Reads trait 2 (t.spelling ++ rest) (· = t) rest := by
  obtain ⟨called, strength, modifiers⟩ := t
  obtain ⟨ms, rfl, allPrintable⟩ := present_all printable.modifiers
  have spellings : (ms.map some).map (part Modifier.spelling) = ms.map Modifier.spelling := by
    simp [part, Function.comp_def]
  by_cases none : ms = []
  · subst none
    have spelled : Trait.spelling ⟨called, strength, []⟩ ++ rest =
        named called :: fixed .colon :: (Spelling.number strength ++ rest) := by
      simp [Trait.spelling]
    rw [List.map_nil, spelled]
    refine Reads.andThen (name_reads "trait" called) ?_
    refine Reads.bind Reads.expect fun _ _ =>
      Reads.andThen (number_reads printable.strength (.inl ends)) ?_
    refine Reads.andThen (Reads.check .with) ?_
    rw [if_neg (by simpa using noWith)]
    exact Reads.pure rfl
  · have spelled : Trait.spelling ⟨called, strength, ms.map some⟩ ++ rest =
        named called :: fixed .colon :: (Spelling.number strength ++ fixed .with ::
          (Spelling.join .comma (ms.map Modifier.spelling) ++ rest)) := by
      simp [Trait.spelling, spellings, none]
    have enough : ms.length ≤ (Spelling.join .comma (ms.map Modifier.spelling) ++
        rest).length := by
      have someTokens : ∀ part ∈ ms.map Modifier.spelling, 0 < part.length := by
        simpa using fun m _ => modifier_spelling_length m
      have atLeast := length_join .comma someTokens
      simp only [List.length_append, List.length_map] at atLeast ⊢
      omega
    have modifiersRead : Reads Grammar.modifiers 2 _ (· = ms) rest :=
      Reads.ofLength (p := fun length => modifiersWithin (length + 1))
        (modifiersWithin_reads none allPrintable (Nat.le_succ_of_le enough) noComma)
    rw [spelled]
    refine Reads.andThen (name_reads "trait" called) ?_
    refine Reads.bind Reads.expect fun _ _ =>
      Reads.andThen (number_reads printable.strength (.inl rfl)) ?_
    refine Reads.andThen (Reads.check .with) ?_
    rw [if_pos (by rfl)]
    refine Reads.bind Reads.advance fun _ _ => Reads.bind modifiersRead ?_
    rintro _ rfl
    exact Reads.pure rfl

/-- A printed name is a word or a string. -/
theorem named_kind (text : Text) : (named text).1 = .name ∨ (named text).1 = .string := by
  unfold named
  split
  · exact .inl rfl
  · exact .inr rfl

/-- A printed name is a name and no arrow. -/
theorem named_shown {text : Text} {t : Token} (shown : Shows (named text :: rest) t) :
    isName t = true ∧ isArrow t = false := by
  have kind : t.kind = (named text).1 := shown.kind
  rcases named_kind text with isWord | isString
  · simp [isName, isArrow, kind, isWord]
  · simp [isName, isArrow, kind, isString]

/-- A topic is read back as an entry of any domain. -/
theorem topic_reads (owner : Text) {t : Topic} (printable : t.Printable) :
    Reads (domainEntry owner) 2 (t.spelling ++ rest) (· = .topic t) rest := by
  refine Reads.bind Reads.current fun token shown => ?_
  rw [if_neg (by simp [(named_shown shown).2])]
  refine Reads.andThen (name_reads "topic" t.name) ?_
  refine Reads.atToken fun _ _ => Reads.bind Reads.advance fun _ _ =>
    Reads.andThen (level_reads (ofWord?_level printable.level)) ?_
  exact Reads.pure rfl

/-- What an arrow points to is read back. -/
theorem arrow_reads {c : Connection} (printable : c.Printable) {rate : List Spelling}
    (spelledRate : rate = match c.rate with
      | some r => fixed .comma :: Spelling.number r
      | none => []) :
    Reads (connection c.source) 2
      (fixed .arrow :: (call (named c.target) (Spelling.number c.strength ++ rate) ++ rest))
      (· = .connections [c]) rest := by
  have spelled : call (named c.target) (Spelling.number c.strength ++ rate) ++ rest =
      named c.target ::
      fixed .parenOpen :: (Spelling.number c.strength ++
        (rate ++ fixed .parenClose :: rest)) := by
    simp [call]
  rw [spelled]
  refine Reads.bind Reads.advance fun arrow shown =>
    Reads.andThen (name_reads "domain" c.target) ?_
  have single : arrow.kind ≠ .biArrow := by
    simp [show arrow.kind = .arrow from congrArg Prod.fst shown]
  subst spelledRate
  cases rated : c.rate with
  | none =>
    refine Reads.bind Reads.expect fun _ _ =>
      Reads.andThen (number_reads printable.strength (.inl rfl)) ?_
    refine Reads.andThen (Reads.andThen (Reads.check .comma) (Reads.pure rfl)) ?_
    refine Reads.bind Reads.expect fun _ _ => Reads.pure ?_
    rw [if_neg single, ← rated]
  | some r =>
    have finite := printable.rate r rated
    refine Reads.bind Reads.expect fun _ _ =>
      Reads.andThen (number_reads printable.strength (.inl rfl)) ?_
    refine Reads.andThen (Reads.andThen (Reads.check .comma)
      (Reads.bind Reads.advance fun _ _ =>
      Reads.andThen (number_reads finite (.inl rfl)) (Reads.pure rfl))) ?_
    refine Reads.bind Reads.expect fun _ _ => Reads.pure ?_
    rw [if_neg single, ← rated]

/-- A connection is read back as an entry of its domain. -/
theorem connection_reads (owner : Text) {c : Connection} (printable : c.Printable) :
    Reads (domainEntry owner) 2 (c.spelling owner ++ rest) (· = .connections [c]) rest := by
  have arrow : Reads (connection c.source) 2 _ (· = .connections [c]) rest :=
    arrow_reads printable rfl
  unfold Connection.spelling
  dsimp only
  split
  · rename_i own
    rw [own] at arrow
    refine Reads.atToken fun _ _ => ?_
    exact arrow
  · refine Reads.bind Reads.current fun token shown => ?_
    rw [if_neg (by simp [(named_shown shown).2])]
    refine Reads.andThen (name_reads "topic" c.source) ?_
    refine Reads.atToken fun _ _ => ?_
    exact arrow

/-- A condition is read back, up to something that neither continues a number nor makes a
comparison or a call of a word. -/
theorem condition_reads {c : Condition} (printable : c.Printable)
    (ends : bindingPower (nextKind rest) = 0)
    (noGreater : nextKind rest ≠ .greater) (noCall : nextKind rest ≠ .parenOpen) :
    Reads condition 2 (c.spelling ++ rest) (· = c) rest := by
  cases c with
  | tired =>
    refine Reads.atToken fun _ _ => Reads.bind (Reads.peek 1) fun following next => ?_
    have kind : following.kind = nextKind rest := next.kind
    rw [if_neg (by simp [kind, noGreater]), kind, decide_eq_false noCall]
    exact Reads.bind Reads.advance fun _ _ => Reads.pure rfl
  | motivated =>
    refine Reads.atToken fun _ _ => Reads.bind (Reads.peek 1) fun following next => ?_
    have kind : following.kind = nextKind rest := next.kind
    rw [if_neg (by simp [kind, noGreater]), kind, decide_eq_false noCall]
    exact Reads.bind Reads.advance fun _ _ => Reads.pure rfl
  | context value =>
    refine Reads.atToken fun _ _ => Reads.bind (Reads.peek 1) fun following next => ?_
    have kind : following.kind = .parenOpen := next.kind
    rw [kind]
    exact Reads.bind Reads.advance fun _ _ =>
      Reads.andThen (Reads.parenthesized (string_reads value)) (Reads.pure rfl)
  | traitAbove trait threshold =>
    refine Reads.bind Reads.current fun token shown =>
      Reads.bind (Reads.peek 1) fun following next => ?_
    have kind : following.kind = .greater := next.kind
    rw [if_pos (by simp [(named_shown shown).1, kind])]
    refine Reads.andThen (name_reads "trait" trait) ?_
    exact Reads.bind Reads.advance fun _ _ =>
      Reads.andThen (number_reads printable.2 (.inl ends)) (Reads.pure rfl)
  | timeRange start stop =>
    refine Reads.atToken fun _ _ => Reads.bind (Reads.peek 1) fun following next => ?_
    have kind : following.kind = .parenOpen := next.kind
    rw [kind]
    refine Reads.bind Reads.advance fun _ _ => Reads.bind Reads.advance fun _ _ => ?_
    refine Reads.andThen (string_reads start) (Reads.bind Reads.expect fun _ _ => ?_)
    exact Reads.andThen (string_reads stop) (Reads.bind Reads.expect fun _ _ => Reads.pure rfl)

/-- An action is read back. -/
theorem action_reads (a : Action) : Reads action 2 (a.spelling ++ rest) (· = a) rest := by
  have loose (text : Text) : Reads looseString 2 (quoted text :: rest) (· = text) rest :=
    Reads.andThen (Reads.check .parenOpen) (string_reads text)
  cases a with
  | prefer value =>
    exact Reads.atToken fun _ _ => Reads.bind Reads.advance fun _ _ =>
      Reads.andThen (loose value) (Reads.pure rfl)
  | seek value =>
    exact Reads.atToken fun _ _ => Reads.bind Reads.advance fun _ _ =>
      Reads.andThen (loose value) (Reads.pure rfl)
  | avoid value =>
    exact Reads.atToken fun _ _ => Reads.bind Reads.advance fun _ _ =>
      Reads.andThen (loose value) (Reads.pure rfl)
  | setStyle key value =>
    refine Reads.atToken fun _ _ => Reads.bind Reads.advance fun _ _ => Reads.parenthesized ?_
    exact Reads.andThen (name_reads "style" key) (Reads.bind Reads.expect fun _ _ =>
      Reads.andThen (string_reads value) (Reads.pure rfl))

/-- A behavior rule is read back. -/
theorem behavior_reads {r : BehaviorRule} (printable : r.Printable) :
    Reads behavior 2 (r.spelling ++ rest) (· = r) rest := by
  obtain ⟨condition, action⟩ := r
  obtain ⟨⟨c, rfl, conditionPrintable⟩, ⟨a, rfl, -⟩⟩ := printable
  have spelled : BehaviorRule.spelling ⟨some c, some a⟩ ++ rest =
      fixed .when :: (c.spelling ++ fixed .arrow :: (a.spelling ++ rest)) := by
    simp [BehaviorRule.spelling, part]
  rw [spelled]
  refine Reads.bind Reads.expect fun _ _ => ?_
  refine Reads.andThen
    (condition_reads conditionPrintable rfl (by simp [nextKind, fixed])
      (by simp [nextKind, fixed])) ?_
  exact Reads.bind Reads.expect fun _ _ => Reads.andThen (action_reads a) (Reads.pure rfl)

/-- A trigger is read back. -/
theorem trigger_reads {t : Trigger} (printable : t.Printable) :
    Reads trigger 2 (t.spelling ++ rest) (· = t) rest := by
  cases t with
  | learns topic =>
    exact Reads.atToken fun _ _ => Reads.bind Reads.advance fun _ _ =>
      Reads.andThen (Reads.parenthesized (name_quoted "topic" topic)) (Reads.pure rfl)
  | timeIn domain unit n =>
    obtain ⟨-, listed, counts⟩ := printable
    have unitNamed := (ofWord?_unit listed).2
    have spelled : (Trigger.timeIn domain unit n).spelling ++ rest =
        word "time_in" :: fixed .parenOpen ::
        named domain :: fixed .comma :: (Spelling.count n ++ word (unit.text ++ "s") ::
          fixed .parenClose :: rest) := by
      simp [Trigger.spelling, call]
    rw [spelled]
    refine Reads.atToken fun _ _ => Reads.bind Reads.advance fun _ _ => Reads.parenthesized ?_
    refine Reads.andThen (name_reads "domain" domain) (Reads.bind Reads.expect fun _ _ => ?_)
    exact Reads.andThen (count_reads counts (.inl rfl))
      (Reads.andThen (timeUnit_reads unitNamed) (Reads.pure rfl))
  | interactions n =>
    have spelled : (Trigger.interactions n).spelling ++ rest =
        word "interactions" :: fixed .parenOpen ::
        (Spelling.count n ++ fixed .parenClose :: rest) := by
      simp [Trigger.spelling, call]
    rw [spelled]
    refine Reads.atToken fun _ _ => Reads.bind Reads.advance fun _ _ => ?_
    refine Reads.andThen (Reads.andThen (Reads.check .greater) ?_) (Reads.pure rfl)
    exact Reads.parenthesized (count_reads printable (.inl rfl))
  | feedback score =>
    have spelled : (Trigger.feedback score).spelling ++ rest =
        word "feedback" :: fixed .parenOpen ::
        (Spelling.number score ++ fixed .parenClose :: rest) := by
      simp [Trigger.spelling, call]
    rw [spelled]
    refine Reads.atToken fun _ _ => Reads.bind Reads.advance fun _ _ => ?_
    refine Reads.andThen (Reads.andThen (Reads.check .greater) ?_) (Reads.pure rfl)
    exact Reads.parenthesized (number_reads printable (.inl rfl))

/-- A change of a trait is read back, up to something that does not continue a number. The
sign of the change decides which of the two operators stands in front of the number. -/
theorem adjust_reads (trait : Text) {x : Binary64} (finite : x.isFinite = true)
    {operator : Kind} (isOperator : operator = .plusAssign ∨ operator = .minusAssign)
    (ends : bindingPower (nextKind rest) = 0) :
    Reads effect 3 (named trait :: fixed operator :: (Spelling.number x ++ rest))
      (· = .adjust trait (if operator = .minusAssign then x.neg else x)) rest := by
  refine Reads.bind Reads.current fun token shown =>
    Reads.bind (Reads.peek 1) fun following next => ?_
  have kind : following.kind = operator := next.kind
  rw [if_pos (by simp [(named_shown shown).1, kind, isOperator])]
  refine Reads.andThen (name_reads "trait" trait)
    (Reads.bind Reads.advance fun taken shows => ?_)
  refine Reads.andThen ((number_reads finite (.inl ends)).mono (by decide)) (Reads.pure ?_)
  rw [show taken.kind = operator from congrArg Prod.fst shows]

/-- An effect is read back, up to something that does not continue a number. -/
theorem effect_reads {e : Effect} (printable : e.Printable)
    (ends : bindingPower (nextKind rest) = 0) :
    Reads effect 3 (e.spelling ++ rest) (· = e) rest := by
  cases e with
  | adjust trait delta =>
    obtain ⟨-, finite⟩ := printable
    by_cases negative : delta.lt .zero = true
    · have negated : delta.neg.isFinite = true ∧ delta.neg.neg = delta := by
        cases delta <;> simp_all [Binary64.isFinite, Binary64.neg]
      have spelled : (Effect.adjust trait delta).spelling ++ rest =
          named trait :: fixed .minusAssign :: (Spelling.number delta.neg ++ rest) := by
        simp [Effect.spelling, negative]
      have reads := adjust_reads trait negated.1 (.inr rfl) ends
      rwa [if_pos rfl, negated.2, ← spelled] at reads
    · have spelled : (Effect.adjust trait delta).spelling ++ rest =
          named trait :: fixed .plusAssign :: (Spelling.number delta ++ rest) := by
        simp [Effect.spelling, negative]
      have reads := adjust_reads trait finite (.inl rfl) ends
      rwa [if_neg (by decide), ← spelled] at reads
  | unlock domain =>
    refine Reads.atToken fun _ _ => Reads.bind (Reads.peek 1) fun following next => ?_
    have kind : following.kind = .parenOpen := next.kind
    rw [kind]
    exact Reads.bind Reads.advance fun _ _ =>
      Reads.andThen (Reads.parenthesized (name_reads "domain" domain)) (Reads.pure rfl)
  | connect source target strength =>
    obtain ⟨-, -, finite⟩ := printable
    have spelled : (Effect.connect source target strength).spelling ++ rest = word "connect" ::
        fixed .parenOpen :: named source :: fixed .comma :: named target :: fixed .comma ::
          (Spelling.number strength ++ fixed .parenClose :: rest) := by
      simp [Effect.spelling, call]
    rw [spelled]
    refine Reads.atToken fun _ _ => Reads.bind (Reads.peek 1) fun following next => ?_
    have kind : following.kind = .parenOpen := next.kind
    rw [kind]
    refine Reads.bind Reads.advance fun _ _ => Reads.parenthesized ?_
    refine Reads.andThen (name_reads "domain" source) (Reads.bind Reads.expect fun _ _ => ?_)
    refine Reads.andThen (name_reads "domain" target) (Reads.bind Reads.expect fun _ _ => ?_)
    exact Reads.andThen ((number_reads finite (.inl rfl)).mono (by decide)) (Reads.pure rfl)
  | adopt rule =>
    have spelled : (Effect.adopt rule).spelling ++ rest =
        word "new_behavior" :: fixed .braceOpen ::
        (rule.spelling ++ fixed .braceClose :: rest) := by
      simp [Effect.spelling]
    rw [spelled]
    refine Reads.atToken fun _ _ => Reads.bind (Reads.peek 1) fun following next => ?_
    have kind : following.kind = .braceOpen := next.kind
    rw [kind]
    refine Reads.bind Reads.advance fun _ _ => Reads.nested ?_
    refine Reads.bind Reads.expect fun _ _ => Reads.andThen (behavior_reads printable) ?_
    refine Reads.andThen (Reads.check .semicolon) ?_
    exact Reads.bind Reads.expect fun _ _ => Reads.pure rfl

/-- An evolution rule is read back, up to something that does not continue a number. -/
theorem evolutionRule_reads {r : EvolutionRule} (printable : r.Printable)
    (ends : bindingPower (nextKind rest) = 0) :
    Reads evolutionRule 3 (r.spelling ++ rest) (· = r) rest := by
  obtain ⟨trigger, effect⟩ := r
  obtain ⟨⟨t, rfl, triggerPrintable⟩, ⟨e, rfl, effectPrintable⟩⟩ := printable
  have spelled : EvolutionRule.spelling ⟨some t, some e⟩ ++ rest =
      fixed .if :: (t.spelling ++ fixed .then :: (e.spelling ++ rest)) := by
    simp [EvolutionRule.spelling, part]
  rw [spelled]
  refine Reads.bind Reads.expect fun _ _ => ?_
  refine Reads.andThen ((trigger_reads triggerPrintable).mono (by decide)) ?_
  exact Reads.bind Reads.expect fun _ _ =>
    Reads.andThen (effect_reads effectPrintable ends) (Reads.pure rfl)

end Persona.Grammar
