import Persona.Proofs.Grammar.Recovery

/-!
# What parsers do not look at

A parser reads the kinds and the values of the tokens. The places of the tokens it only
hands on, to the errors and the events it reports. So it commutes with moving: from tokens
that stand elsewhere it reads the same, and reports it elsewhere.

A parser looks at the nesting limit only to refuse what is nested too deeply. Where it
does, the refusal is to be seen: it is the error that ends the reading, or the reason
for which an entry was skipped. So a reading that shows no such refusal would have been
the same, event by event, under every wider limit.

Proof: Both are one judgment on parsers with one rule for each way in which they are
put together. For the limit, only three rules have something to say. A second part is read
only if the first part has not been refused; one level deeper, the wider limit allows what
the other one does; and a skipped entry hands its refusal on as the notice that it was
skipped.
-/

namespace Persona

/-- The token at another place. -/
def Token.moved (move : Nat → Nat) (t : Token) :
    Token := { t with start := move t.start, stop := move t.stop }

/-- A token that stays where it is. -/
theorem Token.moved_id : Token.moved id = id := rfl

/-- The kind stays. -/
theorem Token.moved_kind (move : Nat → Nat) (t : Token) : (t.moved move).kind = t.kind := rfl

/-- The value stays. -/
theorem Token.moved_value (move : Nat → Nat) (t : Token) : (t.moved move).value = t.value :=
  rfl

namespace SyntaxError

/-- The cause with its token at another place. -/
def Cause.moved (move : Nat → Nat) : Cause → Cause
  | .expected kind got => .expected kind (got.moved move)
  | .expectedNumber got => .expectedNumber (got.moved move)
  | .expectedForm form got => .expectedForm form (got.moved move)
  | .expectedName role got => .expectedName role (got.moved move)
  | .expectedSeparator list got => .expectedSeparator list (got.moved move)
  | .expectedSection got => .expectedSection (got.moved move)
  | .expectedEntry called got => .expectedEntry called (got.moved move)
  | .trailing after got => .trailing after (got.moved move)
  | cause => cause

/-- The error at another place. -/
def moved (move : Nat → Nat) (e : SyntaxError) : SyntaxError :=
  ⟨e.cause.moved move, e.token, move e.start, move e.stop⟩

/-- An error that stays where it is. -/
theorem moved_id (e : SyntaxError) : e.moved id = e := by
  have sameCause : e.cause.moved id = e.cause := by cases e.cause <;> rfl
  rw [moved, sameCause]
  rfl

/-- The error refuses what is nested too deeply. -/
def isTooDeep (e : SyntaxError) : Bool :=
  match e.cause with
  | .tooDeep _ => true
  | _ => false

end SyntaxError

namespace Event

/-- The event at another place. -/
def moved (move : Nat → Nat) : Event → Event
  | .skipped list e => .skipped list (e.moved move)
  | .unknownCondition word => .unknownCondition (word.moved move)
  | .unknownTrigger word => .unknownTrigger (word.moved move)

/-- An entry was skipped because it is nested too deeply. -/
def isTooDeep : Event → Bool
  | .skipped _ e => e.isTooDeep
  | .unknownCondition _ | .unknownTrigger _ => false

end Event

namespace Grammar

open Grammar.Parser

variable {α β : Type} {move : Nat → Nat}

/-- What is reported and left at other places, and the value as it is then. -/
def Reply.moved (move : Nat → Nat) (value : α → α) (reply : Reply α) : Reply α where
  events := reply.events.map (Event.moved move)
  outcome :=
    match reply.outcome with
    | .error e => .error (e.moved move)
    | .ok (result, left) => .ok (value result, left.map (Token.moved move))

/-- A reply that stays where it is. -/
theorem Reply.moved_id (reply : Reply α) : reply.moved id id = reply := by
  have sameEvents : Event.moved id = id := by
    funext event
    cases event <;> simp [Event.moved, SyntaxError.moved_id, Token.moved_id]
  obtain ⟨events, outcome⟩ := reply
  cases outcome with
  | error e => simp [Reply.moved, sameEvents, SyntaxError.moved_id]
  | ok answer => simp [Reply.moved, sameEvents, Token.moved_id]

/-- Nothing was refused because it is nested too deeply. -/
structure Reply.Roomy (reply : Reply α) : Prop where
  events : ∀ event ∈ reply.events, event.isTooDeep = false
  outcome : ∀ e, reply.outcome = .error e → e.isTooDeep = false

/-- Whatever depth the wide limit forbids, the narrow one does. -/
def Wider (narrow wide : Int) : Prop :=
  ∀ depth : Nat, 0 < wide → wide < depth + 1 → 0 < narrow ∧ narrow < depth + 1

/-- The other limit is the same, or it is wider and nothing was refused. -/
def Allows (limit other : Int) (reply : Reply α) :
    Prop := other = limit ∨ Wider limit other ∧ reply.Roomy

/-- Of tokens at other places, and under another limit that allows it, the second
parser reads what the first one does. A value that has places of its own is
`placed` elsewhere. -/
def Follows (move : Nat → Nat) (placed : α → α) (p q : Parser α) : Prop :=
  ∀ setting tokens limit, Allows setting.limit limit (p setting tokens) →
    q ⟨setting.last.moved move, limit, setting.depth⟩ (tokens.map (Token.moved move)) =
      (p setting tokens).moved move placed

/-- The parser reads the same wherever the tokens stand, and under every limit
that allows it. -/
abbrev Steady (move : Nat → Nat) (p : Parser α) : Prop := Follows move id p p

namespace Follows

variable {p q p' q' : Parser α} {next next' : α → Parser β} {placed : α → α}
    {placedNext : β → β}

/-- Reading nothing. -/
theorem pure (value : α) :
    Follows move placed (Pure.pure value) (Pure.pure (placed value)) := fun _ _ _ _ => rfl

/-- A failure. -/
theorem failAt (token : Token) (cause : SyntaxError.Cause) :
    Follows move placed (Parser.failAt token cause : Parser α)
      (Parser.failAt (token.moved move) (cause.moved move)) :=
  fun _ _ _ _ => rfl

/-- Looking ahead. -/
theorem peek (ahead : Nat) : Follows move (Token.moved move) (Parser.peek ahead)
      (Parser.peek ahead) := by
  intro setting tokens limit _
  simp only [Parser.peek, Reply.moved, List.getElem?_map, List.map_nil]
  cases tokens[ahead]? <;> rfl

/-- Looking at the next token. -/
theorem current : Follows move (Token.moved move) Parser.current Parser.current := peek 0

/-- Taking a token. -/
theorem advance : Follows move (Token.moved move) Parser.advance Parser.advance := by
  intro setting tokens limit _
  cases tokens <;> rfl

/-- Noting an event. -/
theorem note (event : Event) :
    Follows move id (Parser.note event) (Parser.note (event.moved move)) := fun _ _ _ _ => rfl

/-- Reading one part and then another. -/
theorem bind (first : Follows move placed p q)
    (second : ∀ value, Follows move placedNext (next value) (next' (placed value))) :
    Follows move placedNext (p >>= next) (q >>= next') := by
  intro setting tokens limit allows
  cases outcome : (p setting tokens).outcome with
  | error e =>
    rw [Parser.bind_error outcome] at allows ⊢
    have allowsFirst : Allows setting.limit limit (p setting tokens) := by
      apply allows.imp_right
      rintro ⟨wider, roomy⟩
      refine ⟨wider, roomy.events, fun e' failed => ?_⟩
      obtain rfl := Except.error.inj (outcome.symm.trans failed)
      exact roomy.outcome e rfl
    have same := first setting tokens limit allowsFirst
    have failed := congrArg Reply.outcome same
    simp only [Reply.moved, outcome] at failed
    rw [Parser.bind_error failed, same]
    rfl
  | ok answer =>
    obtain ⟨value, left⟩ := answer
    rw [Parser.bind_ok outcome] at allows ⊢
    have allowsFirst : Allows setting.limit limit (p setting tokens) := by
      apply allows.imp_right
      rintro ⟨wider, roomy⟩
      refine ⟨wider, fun event member => roomy.events event (List.mem_append_left _ member),
        fun e failed => ?_⟩
      rw [outcome] at failed
      cases failed
    have allowsSecond : Allows setting.limit limit (next value setting left) := by
      apply allows.imp_right
      rintro ⟨wider, roomy⟩
      exact ⟨wider, fun event member => roomy.events event (List.mem_append_right _ member),
        roomy.outcome⟩
    have same := first setting tokens limit allowsFirst
    have read := congrArg Reply.outcome same
    simp only [Reply.moved, outcome] at read
    rw [Parser.bind_ok read, same, second value setting left limit allowsSecond]
    simp [Reply.moved]

/-- Either of two parsers. -/
theorem ite {condition : Prop} [Decidable condition] (holds : Follows move placed p p')
    (fails : Follows move placed q q') :
    Follows move placed (if condition then p else q) (if condition then p' else q') := by
  split
  · exact holds
  · exact fails

/-- A failure at the next token. -/
theorem fail {cause : Token → SyntaxError.Cause}
    (places : ∀ t, cause (t.moved move) = (cause t).moved move) :
    Follows move placed (Parser.fail cause : Parser α) (Parser.fail cause) :=
  current.bind fun t => places t ▸ failAt t (cause t)

/-- Comparing the kind of the next token. -/
theorem check (kind : Kind) : Steady move (Parser.check kind) := current.bind fun _ => pure _

/-- Taking a token of a kind. -/
theorem expect (kind : Kind) :
    Follows move (Token.moved move) (Parser.expect kind) (Parser.expect kind) :=
  current.bind fun t => .ite .advance (failAt t _)

/-- Reading between parentheses. -/
theorem parenthesized (steady : Steady move p) : Steady move (Parser.parenthesized p) :=
  (expect _).bind fun _ => steady.bind fun value => (expect _).bind fun _ => pure value

/-- A parser that is told how many tokens there are. -/
theorem ofLength {p : Nat → Parser α} (steady : ∀ length, Steady move (p length)) :
    Steady move fun setting tokens => p tokens.length setting tokens := by
  intro setting tokens limit allows
  dsimp only
  rw [List.length_map]
  exact steady tokens.length setting tokens limit allows

/-- One level deeper: here the limit is looked at, and a refusal shows. -/
theorem nested (steady : Steady move p) : Steady move (Parser.nested p) := by
  intro setting tokens limit allows
  unfold Parser.nested at allows ⊢
  by_cases forbidden : (decide (0 < setting.limit) &&
    decide (setting.limit < setting.depth + 1)) = true
  · rw [if_pos forbidden] at allows ⊢
    rcases allows with rfl | ⟨-, roomy⟩
    · rw [if_pos forbidden]
      exact fail (fun _ => rfl) setting tokens setting.limit (.inl rfl)
    · exact absurd (roomy.outcome _ rfl) (by simp [SyntaxError.isTooDeep, SyntaxError.atToken])
  · rw [if_neg forbidden] at allows ⊢
    rw [if_neg]
    · exact steady { setting with depth := setting.depth + 1 } tokens limit allows
    · rcases allows with rfl | ⟨wider, -⟩
      · exact forbidden
      · simp only [Bool.and_eq_true, decide_eq_true_eq] at forbidden ⊢
        exact fun both => forbidden (wider setting.depth both.1 both.2)

end Follows

/-- Skipping looks at the kinds of the tokens only. -/
theorem afterSeparator?_moved (depth : Nat) (tokens : List Token) :
    afterSeparator? depth (tokens.map (Token.moved move)) =
      (afterSeparator? depth tokens).map (List.map (Token.moved move)) := by
  induction tokens generalizing depth with
  | nil => rfl
  | cons t tokens inductionHypothesis =>
    rw [List.map_cons, afterSeparator?_cons, afterSeparator?_cons, Token.moved_kind]
    cases pass depth t.kind with
    | some d => exact inductionHypothesis d
    | none => by_cases isSemicolon : t.kind = .semicolon <;> simp [isSemicolon]

/-- Skipping an entry that fails. -/
theorem Follows.recovering (list : Text) {p : Parser α} (steady : Steady move p) :
    Steady move (Grammar.recovering list p) := by
  intro setting tokens limit allows
  have inner : Allows setting.limit limit (p setting tokens) := by
    apply allows.imp_right
    rintro ⟨wider, roomy⟩
    refine ⟨wider, ?_⟩
    cases outcome : (p setting tokens).outcome with
    | ok answer =>
      rw [recovering_read outcome] at roomy
      exact ⟨roomy.events, fun e failed => by rw [outcome] at failed; cases failed⟩
    | error e =>
      have same {e' : SyntaxError} (failed : (p setting tokens).outcome = .error e') :
          e = e' :=
        Except.error.inj (outcome.symm.trans failed)
      cases found : afterSeparator? 0 tokens with
      | some left =>
        rw [recovering_skipped outcome found] at roomy
        obtain ⟨here, skipped⟩ := List.forall_mem_append.mp roomy.events
        exact ⟨here, fun _ failed => same failed ▸ skipped _ (List.mem_singleton_self _)⟩
      | none =>
        rw [recovering_stuck outcome found] at roomy
        exact ⟨roomy.events, fun _ failed => same failed ▸ roomy.outcome e rfl⟩
  unfold Grammar.recovering
  rw [steady setting tokens limit inner, afterSeparator?_moved]
  cases outcome : (p setting tokens).outcome with
  | ok answer => simp [Reply.moved, outcome]
  | error e => cases afterSeparator? 0 tokens <;> simp [Reply.moved, outcome, Event.moved]

/-- Names. -/
theorem name_steady (role : Text) : Steady move (name role) :=
  Follows.current.bind fun t => .ite (Follows.advance.bind fun _ => .pure _) (.failAt t _)

/-- Strings. -/
theorem string_steady : Steady move string := (Follows.expect _).bind fun _ => .pure _

/-- Units of time. -/
theorem timeUnit_steady : Steady move timeUnit := by
  refine Follows.current.bind fun t => ?_
  rw [Token.moved_kind, Token.moved_value]
  generalize (if t.kind = .name then TimeUnit.ofWord? t.value else none) = found
  cases found with
  | some unit => exact Follows.advance.bind fun _ => .pure _
  | none => exact .failAt t _

/-- Levels. -/
theorem level_steady : Steady move level := by
  refine Follows.current.bind fun t => ?_
  rw [Token.moved_kind, Token.moved_value]
  generalize (if t.kind = .name || t.kind = .string then Level.ofWord? t.value else none) =
    found
  cases found with
  | some level => exact Follows.advance.bind fun _ => .pure _
  | none => exact .failAt t _

/-- Literals. -/
theorem literal_steady (token : Token) :
    Follows move id (literal token) (literal (token.moved move)) := by
  unfold literal
  rw [Token.moved_value]
  cases Binary64.read? token.value with
  | some value => exact .pure _
  | none => exact .failAt token _

/-- Operations. -/
theorem apply_steady (operator : Token) (left right : Binary64) :
    Follows move id (apply operator left right) (apply (operator.moved move) left right) := by
  unfold apply
  rw [Token.moved_kind]
  cases operator.kind with
  | plus => exact .pure _
  | minus => exact .pure _
  | times => exact .pure _
  | _ => exact .ite (.failAt operator _) (.pure _)

/-- Operands. -/
theorem operand_steady {inner : Nat → Parser Binary64}
    (steady : ∀ power, Steady move (inner power)) :
    Steady move (operand inner) := by
  refine Follows.current.bind fun t => ?_
  rw [Token.moved_kind]
  cases t.kind with
  | number => exact Follows.advance.bind fun _ => literal_steady t
  | minus => exact Follows.advance.bind fun _ => (steady signPower).bind fun _ => .pure _
  | parenOpen =>
    exact Follows.advance.bind fun _ => (steady 0).bind fun _ =>
      (Follows.expect _).bind fun _ => .pure _
  | _ => exact .failAt t _

/-- Operators. -/
theorem operators_steady {inner : Nat → Parser Binary64}
    (steady : ∀ power, Steady move (inner power)) (power fuel : Nat)
    (left : Binary64) : Steady move (operators inner power fuel left) := by
  induction fuel generalizing left with
  | zero => exact .pure _
  | succ fuel inductionHypothesis =>
    refine Follows.current.bind fun operator => (Follows.peek 1).bind fun _ =>
      .ite ?_ (.pure _)
    exact Follows.advance.bind fun _ => (steady _).bind fun right =>
      (apply_steady operator left right).bind fun value => inductionHypothesis value

/-- Expressions, each of which is one level deeper. -/
theorem expressionWithin_steady (fuel power : Nat) :
    Steady move (expressionWithin fuel power) := by
  induction fuel generalizing power with
  | zero => exact .fail fun _ => rfl
  | succ fuel inductionHypothesis =>
    exact .nested ((operand_steady inductionHypothesis).bind fun left =>
      operators_steady inductionHypothesis power fuel left)

/-- Numbers. -/
theorem number_steady : Steady move number := by
  have folded : Steady move expression :=
    .ofLength (p := fun length => expressionWithin (length + 1) 0) fun length =>
      expressionWithin_steady (length + 1) 0
  exact Follows.current.bind fun t => folded.bind fun _ => .ite (.pure _) (.failAt t _)

/-- Counts. -/
theorem count_steady : Steady move count := by
  refine Follows.current.bind fun t => number_steady.bind fun value => ?_
  rw [id]
  cases value.toInt? with
  | none => exact .failAt t _
  | some n => exact .ite (.failAt t _) (.pure _)

/-- Circumstances. -/
theorem context_steady : Steady move context := by
  refine Follows.current.bind fun t => .ite (Follows.advance.bind fun _ => .pure _) ?_
  refine (Follows.peek 1).bind fun _ => .ite ?_ (.failAt t _)
  refine Follows.advance.bind fun _ => Follows.advance.bind fun _ =>
    string_steady.bind fun _ => ?_
  exact .ite (.pure _) (.ite (.pure _) (.ite (.pure _) (.ite (.pure _) (.failAt t _))))

/-- Modifiers. -/
theorem modifier_steady : Steady move modifier := by
  have decays : Steady move decay :=
    .parenthesized (number_steady.bind fun _ => (Follows.expect _).bind fun _ =>
    timeUnit_steady.bind fun _ => .pure _)
  have amplifies : Steady move amplification := .parenthesized ((name_steady _).bind fun _ =>
    (Follows.expect _).bind fun _ => number_steady.bind fun _ => .pure _)
  have transforms : Steady move transformation := .parenthesized ((name_steady _).bind fun _ =>
    (Follows.expect _).bind fun _ => number_steady.bind fun _ =>
      (Follows.expect _).bind fun _ =>
    count_steady.bind fun _ => .pure _)
  have circumstance : Steady move (parenthesized context) := .parenthesized context_steady
  refine Follows.current.bind fun t => .ite ?when (.ite ?word (.failAt t _))
  case when => exact Follows.advance.bind fun _ => circumstance.bind fun _ => .pure _
  case word =>
    refine .ite (Follows.advance.bind fun _ => decays)
      (.ite ?exception (.ite (Follows.advance.bind fun _ => amplifies)
      (.ite (Follows.advance.bind fun _ => transforms) (.failAt t _))))
    exact Follows.advance.bind fun _ => circumstance.bind fun _ => .pure _

/-- Lists of modifiers. -/
theorem modifiers_steady : Steady move modifiers := by
  refine .ofLength (p := fun length => modifiersWithin (length + 1)) fun length => ?_
  induction length + 1 with
  | zero => exact .fail fun _ => rfl
  | succ fuel inductionHypothesis =>
    refine modifier_steady.bind fun _ => (Follows.check _).bind fun _ => .ite ?_ (.pure _)
    exact Follows.advance.bind fun _ => inductionHypothesis.bind fun _ => .pure _

/-- Traits. -/
theorem trait_steady : Steady move trait := by
  refine (name_steady _).bind fun _ => (Follows.expect _).bind fun _ =>
    number_steady.bind fun _ =>
    (Follows.check _).bind fun _ => .ite ?_ (.pure _)
  exact Follows.advance.bind fun _ => modifiers_steady.bind fun _ => .pure _

/-- Connections. -/
theorem connection_steady (source : Text) : Steady move (connection source) := by
  refine Follows.advance.bind fun _ => (name_steady _).bind fun _ =>
    (Follows.expect _).bind fun _ =>
    number_steady.bind fun _ => ?_
  refine ((Follows.check _).bind fun _ => .ite ?_ (.pure _)).bind fun _ =>
    (Follows.expect _).bind fun _ => .pure _
  exact Follows.advance.bind fun _ => number_steady.bind fun _ => .pure _

/-- Entries of a domain. -/
theorem domainEntry_steady (owner : Text) : Steady move (domainEntry owner) := by
  refine Follows.current.bind fun t => .ite (connection_steady owner) ?_
  refine (name_steady _).bind fun called => Follows.current.bind fun _ => .ite ?_
    (.ite (connection_steady called) (.failAt t _))
  exact Follows.advance.bind fun _ => level_steady.bind fun _ => .pure _

/-- Conditions that are words. -/
theorem wordCondition_steady (token : Token) (call : Bool) :
    Follows move id (wordCondition token call) (wordCondition (token.moved move) call) := by
  refine .ite ?state (.ite ?context (.ite ?time (.ite ?unknown ?bare)))
  case state =>
    refine Follows.advance.bind fun _ => .ite ?_ (.pure _)
    exact Follows.advance.bind fun _ => (Follows.expect _).bind fun _ => .pure _
  case context =>
    exact Follows.advance.bind fun _ =>
      (Follows.parenthesized string_steady).bind fun _ => .pure _
  case time =>
    exact Follows.advance.bind fun _ => Follows.advance.bind fun _ =>
      string_steady.bind fun _ =>
      (Follows.expect _).bind fun _ => string_steady.bind fun _ =>
        (Follows.expect _).bind fun _ => .pure _
  case unknown =>
    have closing : Follows move id
        (do
          let _ ← Parser.expect .parenClose
          Parser.note (.unknownCondition token)
          return Condition.context token.value)
        (do
          let _ ← Parser.expect .parenClose
          Parser.note (.unknownCondition (token.moved move))
          return Condition.context token.value) :=
      (Follows.expect _).bind fun _ => (Follows.note (.unknownCondition token)).bind
        fun _ => .pure _
    refine Follows.advance.bind fun _ => Follows.advance.bind fun _ =>
      (Follows.check _).bind fun _ => .ite ?_ closing
    exact Follows.advance.bind fun _ => closing
  case bare => exact Follows.advance.bind fun _ => .pure _

/-- Conditions. -/
theorem condition_steady : Steady move condition := by
  refine Follows.current.bind fun t => (Follows.peek 1).bind fun _ => .ite ?above
    (.ite (Follows.advance.bind fun _ => .pure _)
      (.ite (wordCondition_steady t _) (.failAt t _)))
  exact (name_steady _).bind fun _ => Follows.advance.bind fun _ =>
    number_steady.bind fun _ => .pure _

/-- Actions. -/
theorem action_steady : Steady move action := by
  have loose : Steady move looseString := (Follows.check _).bind fun _ =>
    .ite (Follows.parenthesized string_steady) string_steady
  have style : Steady move (parenthesized do
      let key ← name "style"
      let _ ← expect .comma
      let value ← string
      return Action.setStyle key value) :=
    .parenthesized ((name_steady _).bind fun _ => (Follows.expect _).bind fun _ =>
      string_steady.bind fun _ => .pure _)
  refine Follows.current.bind fun t =>
    .ite (.ite ?prefer (.ite ?seek (.ite ?avoid (.ite ?style (.failAt t _))))) (.failAt t _)
  case style => exact Follows.advance.bind fun _ => style
  all_goals exact Follows.advance.bind fun _ => loose.bind fun _ => .pure _

/-- Behavior rules. -/
theorem behavior_steady : Steady move behavior :=
  (Follows.expect _).bind fun _ => condition_steady.bind fun _ =>
    (Follows.expect _).bind fun _ =>
    action_steady.bind fun _ => .pure _

/-- Triggers. -/
theorem trigger_steady : Steady move trigger := by
  have compares {α : Type} {value : Parser α} (steady : Steady move value) :
      Steady move (compared value) :=
    (Follows.check _).bind fun _ => .ite (Follows.advance.bind fun _ =>
      steady) steady.parenthesized
  refine Follows.current.bind fun t =>
    .ite (.ite ?learns (.ite ?time (.ite ?interactions (.ite ?feedback ?unknown))))
    (.failAt t _)
  case learns =>
    exact Follows.advance.bind fun _ =>
      (Follows.parenthesized (name_steady _)).bind fun _ => .pure _
  case time =>
    exact Follows.advance.bind fun _ => .parenthesized ((name_steady _).bind fun _ =>
      (Follows.expect _).bind fun _ =>
      count_steady.bind fun _ => timeUnit_steady.bind fun _ => .pure _)
  case interactions =>
    exact Follows.advance.bind fun _ => (compares count_steady).bind fun _ => .pure _
  case feedback =>
    exact Follows.advance.bind fun _ => (compares number_steady).bind fun _ => .pure _
  case unknown =>
    refine (Follows.peek 1).bind fun _ => .ite ?_ (.failAt t _)
    exact Follows.advance.bind fun _ => (Follows.parenthesized number_steady).bind fun _ =>
      (Follows.note _).bind fun _ => .pure _

/-- Effects. An adopted behavior is one level deeper. -/
theorem effect_steady : Steady move effect := by
  have adjusts : Steady move adjustment :=
    (name_steady _).bind fun _ => Follows.advance.bind fun _ => number_steady.bind fun _ =>
      .pure _
  have points : Steady move arrowEffect :=
    (name_steady _).bind fun _ => Follows.advance.bind fun _ => (name_steady _).bind fun _ =>
      (Follows.parenthesized number_steady).bind fun _ => .pure _
  have closing (rule : BehaviorRule) : Steady move (do
      let _ ← Parser.expect .braceClose
      return Effect.adopt rule) := (Follows.expect _).bind fun _ => .pure _
  have adopts : Steady move adoption :=
    .nested ((Follows.expect _).bind fun _ => behavior_steady.bind fun rule =>
    (Follows.check _).bind fun _ => .ite (Follows.advance.bind fun _ => closing rule)
      (closing rule))
  have connects : Steady move (parenthesized do
      let source ← name "domain"
      let _ ← expect .comma
      let target ← name "domain"
      let _ ← expect .comma
      let strength ← number
      return Effect.connect source target strength) :=
    .parenthesized ((name_steady _).bind fun _ => (Follows.expect _).bind fun _ =>
      (name_steady _).bind fun _ =>
      (Follows.expect _).bind fun _ => number_steady.bind fun _ => .pure _)
  refine Follows.current.bind fun t => (Follows.peek 1).bind fun _ => .ite adjusts (.ite points
    (.ite (.ite ?unlock (.ite (Follows.advance.bind fun _ => connects)
      (.ite (Follows.advance.bind fun _ => adopts) (.failAt t _)))) (.failAt t _)))
  exact Follows.advance.bind fun _ => (Follows.parenthesized (name_steady _)).bind fun _ =>
    .pure _

/-- Evolution rules. -/
theorem evolutionRule_steady : Steady move evolutionRule :=
  (Follows.expect _).bind fun _ => trigger_steady.bind fun _ =>
    (Follows.expect _).bind fun _ =>
    effect_steady.bind fun _ => .pure _

/-- Lists of entries. -/
theorem entries_steady (list : Text) (optional : Bool) {entry : Parser α}
    (steady : Steady move entry) :
    Steady move (entries list optional entry) := by
  have separates : Steady move (separated list optional entry) := steady.bind fun _ =>
    Follows.current.bind fun t =>
    .ite (Follows.advance.bind fun _ => .pure _) (.ite (.pure _) (.failAt t _))
  refine (Follows.expect _).bind fun _ =>
    .ofLength (p := fun length => entriesWithin list optional entry (length + 1))
    fun length => ?_
  induction length + 1 with
  | zero => exact .fail fun _ => rfl
  | succ fuel inductionHypothesis =>
    refine Follows.current.bind fun t => .ite (Follows.advance.bind fun _ => .pure _)
      (.ite (.failAt t _) ?_)
    exact (separates.recovering list).bind fun _ => inductionHypothesis.bind fun _ => .pure _

/-- Domains. -/
theorem domain_steady : Steady move domain :=
  (Follows.expect _).bind fun _ => (Follows.parenthesized (name_steady _)).bind fun called =>
    (entries_steady _ false (domainEntry_steady called)).bind fun _ => .pure _

/-- Documents. -/
theorem document_steady : Steady move document := by
  have sections {β : Type} {kind : Kind} {body : Parser (List β)}
      (steady : Steady move body) : Steady move (optionalSection kind body) :=
    (Follows.check _).bind fun _ => .ite (Follows.advance.bind fun _ => steady) (.pure _)
  have ending : Steady move documentEnd := by
    refine Follows.current.bind fun t => .ite (.failAt t _) (.ite ?_ (.failAt t _))
    exact Follows.advance.bind fun _ => Follows.current.bind fun following =>
      .ite (.pure _) (.failAt following _)
  refine Follows.current.bind fun t => .ite (.failAt t _) ?_
  refine (Follows.expect _).bind fun _ => (name_steady _).bind fun _ =>
    (Follows.expect _).bind fun _ => ?_
  refine (sections (entries_steady _ _ trait_steady)).bind fun _ => ?_
  refine (sections (entries_steady _ _ domain_steady)).bind fun _ => ?_
  refine (sections (entries_steady _ _ behavior_steady)).bind fun _ => ?_
  refine (sections (entries_steady _ _ evolutionRule_steady)).bind fun _ => ?_
  exact ending.bind fun _ => .pure _

end Grammar

end Persona
