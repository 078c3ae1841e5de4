import Persona.Proofs.Grammar.Arithmetic

/-!
# Folding expressions

An expression has a tree, and the value of the tree is found from the bottom up. It may
have none: a literal can be too large, and a divisor can be zero. This module shows that
the reader of expressions follows the trees. In front of the symbols of a tree it takes
exactly these and answers with the value of the tree, or fails where the tree has none;
and whatever it takes are the symbols of a tree with the value it gives.

What a failure says plays no part here. So a parser is seen by its answer alone, a value
with the tokens that are left or nothing, and reading one part after another becomes
composition of partial functions.

Proof: The loop over the operators does not build a tree, it folds from the left. Reading
a tree comes to the same as going on from its value behind it, which is shown by induction
on the tree for every way of going on.
-/

namespace Persona.Grammar

open Grammar.Parser
open Spelling (fixed)

/-- The trees of expressions. Repetition groups to the left, so the left operand of an
operator is of the rank of the operator and the right one is tighter. -/
inductive Tree : Rank → Type where
  | literal (numeral : Text) : Tree .factor
  | negative (inner : Tree .factor) : Tree .factor
  | group (inner : Tree .sum) : Tree .factor
  | factor (only : Tree .factor) : Tree .product
  | product (only : Tree .product) : Tree .sum
  | operation {rank : Rank} (kind : Kind) (makes : rankOf kind = some rank) (left : Tree rank)
      (right : Tree rank.tighter) : Tree rank

namespace Tree

/-- The symbols of a tree. -/
def symbols : {rank : Rank} → Tree rank → List Spelling
  | _, .literal numeral => [(.number, numeral)]
  | _, .negative inner => fixed .minus :: inner.symbols
  | _, .group inner => fixed .parenOpen :: (inner.symbols ++ [fixed .parenClose])
  | _, .factor only => only.symbols
  | _, .product only => only.symbols
  | _, .operation kind _ left right => left.symbols ++ fixed kind :: right.symbols

/-- The value of a tree, if every literal is a number and every operation is defined. -/
def value : {rank : Rank} → Tree rank → Option Binary64
  | _, .literal numeral => Binary64.read? numeral
  | _, .negative inner => inner.value.map Binary64.neg
  | _, .group inner => inner.value
  | _, .factor only => only.value
  | _, .product only => only.value
  | _, .operation kind _ left right =>
    left.value.bind fun x => right.value.bind fun y => Grammar.operation kind x y

end Tree

/-- What derives with a value are the symbols of a tree with that value. -/
theorem folds_iff_tree {rank : Rank} {e : List Spelling} {x : Binary64} :
    Folds rank e x ↔ ∃ t : Tree rank, t.symbols = e ∧ t.value = some x := by
  constructor
  · intro folds
    induction folds with
    | @literal numeral _ read => exact ⟨.literal numeral, rfl, read⟩
    | negative _ inductionHypothesis =>
      obtain ⟨t, rfl, valued⟩ := inductionHypothesis
      exact ⟨.negative t, rfl, by simp [Tree.value, valued]⟩
    | group _ inductionHypothesis =>
      obtain ⟨t, rfl, valued⟩ := inductionHypothesis
      exact ⟨.group t, rfl, valued⟩
    | factor _ inductionHypothesis =>
      obtain ⟨t, rfl, valued⟩ := inductionHypothesis
      exact ⟨.factor t, rfl, valued⟩
    | product _ inductionHypothesis =>
      obtain ⟨t, rfl, valued⟩ := inductionHypothesis
      exact ⟨.product t, rfl, valued⟩
    | operation makes _ _ defined firstTree secondTree =>
      obtain ⟨left, rfl, leftValue⟩ := firstTree
      obtain ⟨right, rfl, rightValue⟩ := secondTree
      exact ⟨.operation _ makes left right,
        rfl, by simp [Tree.value, leftValue, rightValue, defined]⟩
  · rintro ⟨t, rfl, valued⟩
    induction t generalizing x with
    | literal numeral => exact .literal valued
    | negative inner inductionHypothesis =>
      obtain ⟨y, innerValue, rfl⟩ := Option.map_eq_some_iff.mp valued
      exact .negative (inductionHypothesis innerValue)
    | group inner inductionHypothesis => exact .group (inductionHypothesis valued)
    | factor only inductionHypothesis => exact .factor (inductionHypothesis valued)
    | product only inductionHypothesis => exact .product (inductionHypothesis valued)
    | operation kind makes left right leftFolds rightFolds =>
      obtain ⟨y, leftValue, valued⟩ := Option.bind_eq_some_iff.mp valued
      obtain ⟨z, rightValue, defined⟩ := Option.bind_eq_some_iff.mp valued
      exact .operation makes (leftFolds leftValue) (rightFolds rightValue) defined

/-- A tree starts with a numeral, a minus sign or a parenthesis. -/
theorem Tree.starts {rank : Rank} (t : Tree rank) :
    ∃ s others, t.symbols = s :: others ∧
      (s.1 = .number ∨ s.1 = .minus ∨ s.1 = .parenOpen) := by
  induction t with
  | literal numeral => exact ⟨_, _, rfl, .inl rfl⟩
  | negative inner => exact ⟨_, _, rfl, .inr (.inl rfl)⟩
  | group inner => exact ⟨_, _, rfl, .inr (.inr rfl)⟩
  | factor only inductionHypothesis => exact inductionHypothesis
  | product only inductionHypothesis => exact inductionHypothesis
  | operation kind makes left right leftStarts rightStarts =>
    obtain ⟨s, others, spelled, start⟩ := leftStarts
    exact ⟨s, others ++ fixed kind :: right.symbols, by simp [symbols, spelled], start⟩

section Answers

variable {α β : Type} {setting : Setting} {tokens : List Token}

/-- What a parser answers, if it does not fail. -/
def Parser.answer (p : Parser α) (setting : Setting) (tokens : List Token) :
    Option (α × List Token) :=
  (p setting tokens).outcome.toOption

/-- A parser answers with a value and what is left exactly where it succeeds with them. -/
theorem answer_eq_some_iff {p : Parser α} {value : α} {left : List Token} :
    p.answer setting tokens = some (value, left) ↔
      (p setting tokens).outcome = .ok (value, left) := by
  unfold Parser.answer
  cases (p setting tokens).outcome <;> simp [Except.toOption]

/-- A parser has no answer exactly where it fails. -/
theorem answer_eq_none_iff {p : Parser α} :
    p.answer setting tokens = none ↔ ∃ e, (p setting tokens).outcome = .error e := by
  unfold Parser.answer
  cases (p setting tokens).outcome <;> simp [Except.toOption]

/-- A value is answered without reading. -/
@[simp] theorem answer_pure (value : α) :
    Parser.answer (pure value) setting tokens = some (value, tokens) := rfl

/-- The answer of two parsers in a row is that of the second where the first
one stopped. -/
@[simp] theorem answer_bind (p : Parser α) (next : α → Parser β) :
    (p >>= next).answer setting tokens =
      (p.answer setting tokens).bind fun (value, left) =>
      (next value).answer setting left := by
  unfold Parser.answer
  cases outcome : (p setting tokens).outcome with
  | error e => rw [Parser.bind_error outcome]; rfl
  | ok read => rw [Parser.bind_ok outcome]; rfl

/-- A failure is no answer. -/
@[simp] theorem answer_failAt (token : Token) (cause : SyntaxError.Cause) :
    Parser.answer (Parser.failAt token cause : Parser α) setting tokens = none := rfl

/-- Looking ahead answers with the token there, or with the last one, and
reads nothing. -/
@[simp] theorem answer_peek (ahead : Nat) :
    (Parser.peek ahead).answer setting tokens =
      some (tokens[ahead]?.getD setting.last, tokens) := rfl

/-- Looking at the current token is looking ahead by none. -/
@[simp] theorem answer_current :
    Parser.current.answer setting tokens = some (tokens[0]?.getD setting.last, tokens) := rfl

/-- Advancing answers with the current token and leaves those behind it. -/
@[simp] theorem answer_advance :
    Parser.advance.answer setting tokens = some (tokens.head?.getD setting.last,
      tokens.tail) := rfl

/-- A choice answers as the parser that is chosen. -/
@[simp] theorem answer_ite {condition : Prop} [Decidable condition] (p q : Parser α) :
    Parser.answer (if condition then p else q) setting tokens =
      if condition then p.answer setting tokens else q.answer setting tokens := by
  split <;> rfl

/-- An expected token is answered; any other one is no answer. -/
@[simp] theorem answer_expect (kind : Kind) (t : Token) :
    (Parser.expect kind).answer setting (t :: tokens) =
      if t.kind = kind then some (t, tokens) else none := by
  simp [Parser.expect]

/-- Where nesting is not limited one more level makes no difference. -/
theorem answer_nested (unlimited : setting.limit ≤ 0) (p : Parser α) :
    (Parser.nested p).answer setting tokens =
      p.answer { setting with depth := setting.depth + 1 } tokens := by
  have free : ¬ (0 < setting.limit && setting.limit < setting.depth + 1) = true := by
    simp
    omega
  unfold Parser.answer Parser.nested
  rw [if_neg free]

end Answers

/-- A literal is answered with its value. -/
theorem answer_literal (t : Token) (setting : Setting) (tokens : List Token) :
    (literal t).answer setting tokens = (Binary64.read? t.value).map fun x => (x, tokens) := by
  unfold literal
  cases Binary64.read? t.value <;> simp

/-- An operation is answered with its value. -/
theorem answer_apply {operator : Token} {rank : Rank}
    (makes : rankOf operator.kind = some rank) (x y : Binary64)
    (setting : Setting) (tokens : List Token) :
    (apply operator x y).answer setting tokens = (operation operator.kind x y).map fun z =>
      (z, tokens) := by
  unfold apply operation
  revert makes
  cases operator.kind <;> simp [rankOf]
  intro _
  split <;> simp

/-- The binding power from which on no operator joins two operands of a rank. -/
def Rank.limit : Rank → Nat
  | .sum => 10
  | .product => 20
  | .factor => signPower + 1

/-- No operator binds more tightly than a product. -/
theorem stops_tight {power : Nat} (tight : 20 ≤ power) (rest : List Spelling) :
    Stops power rest :=
  .inl ((bindingPower_le _).trans tight)

/-- Nothing limits the nesting, and there is an end. -/
structure Setting.Free (setting : Setting) : Prop where
  ends : setting.last.kind = .endOfInput
  unlimited : setting.limit ≤ 0

/-- One level deeper nothing limits the nesting either. -/
theorem Setting.Free.deeper {setting : Setting} (free : setting.Free) :
    Setting.Free { setting with depth := setting.depth + 1 } := ⟨free.ends, free.unlimited⟩

variable {setting : Setting} {power : Nat}

/-- The loop folds the next operator, or ends with the value it has. -/
theorem answer_operators (inner : Nat → Parser Binary64) (turns : Nat) (x : Binary64)
    {tokens : List Token}
    {operator following : Token} (seen : tokens[0]?.getD setting.last = operator)
    (seenNext : tokens[1]?.getD setting.last = following) :
    (operators inner power (turns + 1) x).answer setting tokens =
      if power < bindingPower operator.kind &&
      !(operator.kind = .divide && isTimeUnit following) then
        ((inner (bindingPower operator.kind)).answer setting tokens.tail).bind fun (y, left) =>
          ((apply operator x y).answer setting left).bind fun (z, rest) =>
            (operators inner power turns z).answer setting rest
      else some (x, tokens) := by
  subst seen seenNext
  simp only [operators, answer_bind, answer_current, answer_peek, answer_ite,
    answer_advance, answer_pure, Option.bind_some]

/-- The loop ends with the value it has where no operator goes on. -/
theorem operators_halt (free : setting.Free) (inner : Nat → Parser Binary64)
    {rest : List Token}
    (stops : Stops power (rest.map Token.symbol)) (turns : Nat) (x : Binary64) :
    (operators inner power turns x).answer setting rest = some (x, rest) := by
  cases turns with
  | zero => rfl
  | succ turns =>
    have halted : ¬ (decide (power < bindingPower (rest[0]?.getD setting.last).kind) &&
        !(decide ((rest[0]?.getD setting.last).kind = .divide) &&
          isTimeUnit (rest[1]?.getD setting.last))) = true := by
      rcases stops with weak | ⟨text, others, spelled, isUnit⟩
      · cases rest with
        | nil => simp [free.ends, bindingPower]
        | cons t rest =>
          have weak : bindingPower t.kind ≤ power := weak
          simp [weak]
      · obtain ⟨slash, more, rfl, isSlash, spelled⟩ := List.map_eq_cons_iff.mp spelled
        obtain ⟨unit, others, rfl, isWord, -⟩ := List.map_eq_cons_iff.mp spelled
        obtain ⟨isName, named⟩ := Token.value_of_symbol isWord rfl
        have isDivide : slash.kind = .divide := congrArg Prod.fst isSlash
        simp [isDivide, isTimeUnit, isName, named, isUnit]
    rw [answer_operators inner turns x rfl rfl, if_neg halted]

/-- One turn of the loop: an operator that binds tightly enough and is no slash before a
unit of time, its right operand, and the loop from the value of the operation on. -/
theorem operators_turn {inner : Nat → Parser Binary64} {operator : Token} {rank : Rank}
    {used rest : List Token}
    {right : Tree rank.tighter} (makes : rankOf operator.kind = some rank)
    (tight : power < bindingPower operator.kind)
    (spelled : used.map Token.symbol = right.symbols)
    (reads : (inner (bindingPower operator.kind)).answer setting (used ++ rest) =
      right.value.map fun y => (y, rest))
    (turns : Nat) (x : Binary64) :
    (operators inner power (turns + 1) x).answer setting (operator :: (used ++ rest)) =
      (right.value.bind (operation operator.kind x)).bind fun z =>
        (operators inner power turns z).answer setting rest := by
  obtain ⟨s, others, begins, start⟩ := right.starts
  obtain ⟨first, more, rfl, isFirst, -⟩ := List.map_eq_cons_iff.mp (spelled.trans begins)
  have notUnit : isTimeUnit first = false := by
    have sameKind : first.kind = s.1 := congrArg Prod.fst isFirst
    rcases start with start | start | start <;> simp [isTimeUnit, sameKind, start]
  have goesOn : (decide (power < bindingPower operator.kind) &&
      !(decide (operator.kind = .divide) && isTimeUnit first)) = true := by
    simp [tight, notUnit]
  have seen : (operator :: (first :: more ++ rest))[0]?.getD setting.last = operator := rfl
  have seenNext : (operator :: (first :: more ++ rest))[1]?.getD setting.last = first := rfl
  rw [answer_operators inner turns x seen seenNext, if_pos goesOn, List.tail_cons, reads,
    Option.bind_map, Option.bind_assoc]
  simp [answer_apply makes, Option.bind_map]

/-- Reading the tree comes to the same as going on from its value behind it, in front of
anything that does not go on with one of its last operands. -/
def GoesOn {rank : Rank} (t : Tree rank) : Prop :=
  ∀ (setting : Setting) (power fuel turns : Nat) (used rest : List Token)
    (next : Binary64 → Option (Binary64 × List Token)), setting.Free →
      used.map Token.symbol = t.symbols →
    power < rank.limit → Stops rank.limit (rest.map Token.symbol) →
    (used ++ rest).length ≤ fuel → (used ++ rest).length ≤ turns →
    (∀ x turns, rest.length ≤ turns →
      (operators (expressionWithin fuel) power turns x).answer setting rest = next x) →
    (operand (expressionWithin fuel) >>=
      operators (expressionWithin fuel) power turns).answer setting (used ++ rest) =
      t.value.bind next

/-- A tree that goes on from its value is read where nothing goes on. -/
theorem GoesOn.answer {rank : Rank} {t : Tree rank} (goesOn : GoesOn t)
    (free : setting.Free) {fuel : Nat}
    {used rest : List Token} (spelled : used.map Token.symbol = t.symbols)
    (loose : power < rank.limit) (bounded : Stops rank.limit (rest.map Token.symbol))
    (stops : Stops power (rest.map Token.symbol)) (enough : (used ++ rest).length < fuel) :
    (expressionWithin fuel power).answer setting (used ++ rest) = t.value.map fun x =>
      (x, rest) := by
  obtain ⟨fuel, rfl⟩ := Nat.exists_eq_add_one_of_ne_zero
    (Nat.ne_of_gt (Nat.zero_lt_of_lt enough))
  have fits := Nat.le_of_lt_succ enough
  rw [expressionWithin, answer_nested free.unlimited, Option.map_eq_bind]
  apply goesOn _ power fuel fuel used rest _ free.deeper spelled loose bounded fits fits
  intro x turns _
  exact operators_halt free.deeper _ stops turns x

/-- An operand that is read in front of anything goes on from its value. -/
theorem GoesOn.ofOperand {rank : Rank} {t : Tree rank}
    (reads : ∀ (setting : Setting) (fuel : Nat) (used rest : List Token), setting.Free →
      used.map Token.symbol = t.symbols → (used ++ rest).length ≤ fuel →
      (operand (expressionWithin fuel)).answer setting (used ++ rest) = t.value.map fun x =>
    (x, rest)) : GoesOn t := by
  intro setting power fuel turns used rest next free spelled _ _ enough enoughTurns goesOn
  rw [List.length_append] at enoughTurns
  rw [answer_bind, reads setting fuel used rest free spelled enough, Option.bind_map]
  congr 1
  funext x
  exact goesOn x turns (by omega)

/-- A literal goes on from its value. -/
theorem GoesOn.literal (numeral : Text) : GoesOn (.literal numeral) := by
  apply GoesOn.ofOperand
  intro setting fuel used rest _ spelled _
  obtain ⟨t, rfl, isNumeral⟩ := List.map_eq_singleton_iff.mp spelled
  obtain ⟨isNumber, rfl⟩ := Token.value_of_symbol isNumeral rfl
  simp [operand, isNumber, answer_literal, Tree.value]

/-- A sign goes on from the value with the other sign. Its operand is read to where it
ends, because no operator binds more tightly than a sign. -/
theorem GoesOn.negative {inner : Tree .factor} (goesOn : GoesOn inner) :
    GoesOn (.negative inner) := by
  apply GoesOn.ofOperand
  intro setting fuel used rest free spelled enough
  obtain ⟨minus, used, rfl, isMinus, spelled⟩ := List.map_eq_cons_iff.mp spelled
  have kind : minus.kind = .minus := congrArg Prod.fst isMinus
  have enoughInside : (used ++ rest).length < fuel := by
    simp only [List.cons_append, List.length_cons] at enough
    omega
  have loose : signPower < Rank.factor.limit := by decide
  have halts : Stops signPower (rest.map Token.symbol) := stops_tight (by decide) _
  have reads := goesOn.answer free spelled loose (stops_tight (by decide) _) halts enoughInside
  cases value : inner.value <;> simp [operand, kind, reads, Tree.value, value]

/-- A sum between parentheses goes on from the value of the sum, which ends at the
parenthesis. -/
theorem GoesOn.group {inner : Tree .sum} (goesOn : GoesOn inner) : GoesOn (.group inner) := by
  apply GoesOn.ofOperand
  intro setting fuel used rest free spelled enough
  obtain ⟨opening, behind, rfl, isOpen, spelledBehind⟩ := List.map_eq_cons_iff.mp spelled
  obtain ⟨used, last, rfl, spelledInside, ending⟩ := List.map_eq_append_iff.mp spelledBehind
  obtain ⟨closing, rfl, isClose⟩ := List.map_eq_singleton_iff.mp ending
  have openKind : opening.kind = .parenOpen := congrArg Prod.fst isOpen
  have closeKind : closing.kind = .parenClose := congrArg Prod.fst isClose
  have closes (power : Nat) : Stops power ((closing :: rest).map Token.symbol) := by
    apply Or.inl
    simp [nextKind, Token.symbol, closeKind, bindingPower]
  have fits : (used ++ closing :: rest).length < fuel := by
    simp only [List.cons_append, List.length_cons, List.length_append,
      List.length_nil] at enough ⊢
    omega
  have reads := goesOn.answer free spelledInside (by decide) (closes _) (closes 0) fits
  cases value : inner.value <;> simp [operand, openKind, closeKind, reads, Tree.value, value]

/-- What is more tightly bound goes on where the looser one does. -/
theorem GoesOn.loosen {rank looser : Rank} {t : Tree rank} {u : Tree looser}
    (goesOn : GoesOn t)
    (sameSymbols : u.symbols = t.symbols) (sameValue : u.value = t.value)
    (weaker : looser.limit < rank.limit) (tight : 20 ≤ rank.limit) : GoesOn u := by
  intro setting power fuel turns used rest next free spelled loose _
  rw [sameValue]
  exact goesOn setting power fuel turns used rest next free (sameSymbols ▸ spelled)
    (Nat.lt_trans loose weaker)
    (stops_tight tight _)

/-- An operation goes on from its value. The left operand goes on with the operator,
because the operator does not bind more tightly than its own rank; the right operand is
read where the operation ends, and then the loop goes on from the value of the operation.
Where one of them has no value there is none to go on from. -/
theorem GoesOn.operation {rank : Rank} {kind : Kind} (makes : rankOf kind = some rank)
    {left : Tree rank}
    {right : Tree rank.tighter} (leftGoesOn : GoesOn left) (rightGoesOn : GoesOn right) :
    GoesOn (.operation kind makes left right) := by
  intro setting power fuel turns used rest next free spelled loose bounded enough
    enoughTurns goesOn
  obtain ⟨first, behind, rfl, spelledLeft, spelled⟩ := List.map_eq_append_iff.mp spelled
  obtain ⟨operator, second, rfl, isOperator, spelledRight⟩ := List.map_eq_cons_iff.mp spelled
  obtain rfl : operator.kind = kind := congrArg Prod.fst isOperator
  have strength : bindingPower operator.kind = rank.limit := by
    rcases bindingPower_rankOf makes with ⟨rfl, strength, -⟩ |
        ⟨rfl, strength⟩ <;> exact strength
  have tighter : bindingPower operator.kind < rank.tighter.limit ∧
      Stops rank.tighter.limit (rest.map Token.symbol) := by
    rcases bindingPower_rankOf makes with ⟨rfl, strength, -⟩ | ⟨rfl, strength⟩
    · exact ⟨by rw [strength]; decide, stops_tight (by decide) _⟩
    · exact ⟨by rw [strength]; decide, stops_tight (by decide) _⟩
  simp only [List.append_assoc, List.cons_append, List.length_append,
    List.length_cons] at enough enoughTurns ⊢
  have reads : (expressionWithin fuel (bindingPower operator.kind)).answer setting
      (second ++ rest) =
      right.value.map fun y => (y, rest) := by
    apply rightGoesOn.answer free spelledRight tighter.1 tighter.2
    · rwa [strength]
    · rw [List.length_append]
      omega
  have whole := leftGoesOn setting power fuel turns first (operator :: (second ++ rest))
    (fun x => (right.value.bind (Grammar.operation operator.kind x)).bind next) free
      spelledLeft loose
    (.inl (Nat.le_of_eq strength)) (by simpa using enough) (by simpa using enoughTurns)
  rw [whole]
  · simp [Tree.value, Option.bind_assoc]
  · intro x turns enoughTurns
    simp only [List.length_cons, List.length_append] at enoughTurns
    obtain ⟨turns, rfl⟩ :=
      Nat.exists_eq_add_one_of_ne_zero (Nat.ne_of_gt (Nat.zero_lt_of_lt enoughTurns))
    rw [operators_turn makes (by rwa [strength]) spelledRight reads]
    congr 1
    funext z
    exact goesOn z turns (by omega)

/-- Every tree goes on from its value. -/
theorem Tree.goesOn {rank : Rank} (t : Tree rank) : GoesOn t := by
  induction t with
  | literal numeral => exact .literal numeral
  | negative inner inductionHypothesis => exact inductionHypothesis.negative
  | group inner inductionHypothesis => exact inductionHypothesis.group
  | factor only inductionHypothesis =>
    exact inductionHypothesis.loosen rfl rfl (by decide) (by decide)
  | product only inductionHypothesis =>
    exact inductionHypothesis.loosen rfl rfl (by decide) (by decide)
  | operation kind makes left right leftGoesOn rightGoesOn =>
    exact .operation makes leftGoesOn rightGoesOn

/-- The reader of expressions follows the tree wherever nothing goes on. -/
theorem answer_expression (free : setting.Free) (t : Tree .sum) {used rest : List Token}
    (spelled : used.map Token.symbol = t.symbols) (stops : Stops 0 (rest.map Token.symbol)) :
    expression.answer setting (used ++ rest) = t.value.map fun x => (x, rest) := by
  have bounded : Stops Rank.sum.limit (rest.map Token.symbol) :=
    stops.imp (fun weak => weak.trans (Nat.zero_le _)) id
  exact t.goesOn.answer free spelled (by decide) bounded stops (Nat.lt_succ_self _)

/-- Every sum is an expression, wherever nothing goes on with it. -/
theorem expression_accepts {e rest : List Spelling} {value : Binary64}
    (folds : Folds .sum e value)
    (stops : Stops 0 rest) : Accepts expression (e ++ rest) (· = value) rest := by
  intro setting tokens ends unlimited symbols
  obtain ⟨t, rfl, valued⟩ := folds_iff_tree.mp folds
  obtain ⟨used, left, rfl, spelled, rfl⟩ := List.map_eq_append_iff.mp symbols
  have answered := answer_expression ⟨ends, unlimited⟩ t spelled stops
  rw [valued] at answered
  exact ⟨(expression_takes setting _ ends).1, value, left, answer_eq_some_iff.mp answered,
    rfl, rfl⟩

/-- No operator follows, or a slash that belongs to a rate because a unit of time
follows it. -/
def Ended (rest : List Token) : Prop :=
  (∀ t ∈ rest.head?, t.kind ∉ [Kind.plus, .minus, .times, .divide]) ∨
    ∃ slash unit others, rest = slash :: unit :: others ∧ slash.kind = .divide ∧
      isTimeUnit unit = true

/-- Where an expression has ended nothing goes on with it. -/
theorem Ended.stops {rest : List Token} (ended : Ended rest) :
    Stops 0 (rest.map Token.symbol) := by
  rcases ended with noOperator | ⟨slash, unit, others, rfl, isDivide, isUnit⟩
  · apply Or.inl
    cases rest with
    | nil => exact Nat.le_refl 0
    | cons t rest =>
      have other := noOperator t rfl
      have weak : bindingPower t.kind = 0 := by
        cases kind : t.kind <;> first | rfl | simp [kind] at other
      exact Nat.le_of_eq weak
  · obtain ⟨isName, named⟩ : unit.kind = .name ∧
        (TimeUnit.ofWord? unit.value).isSome = true := by
      simpa [isTimeUnit] using isUnit
    apply Or.inr
    exact ⟨unit.value,
      others.map Token.symbol, by
        simp [Token.symbol_fixed isDivide rfl, Token.symbol_word isName], named⟩

/-- The reader of expressions follows the grammar of expressions. Where nothing limits
the nesting, it takes the symbols of a tree, wherever the expression has ended behind
them, and not one token more; it answers with the value of the tree, or fails if an
operation of the tree is undefined or a literal is too large. Whatever else it may
succeed with, under whatever limit, are the symbols of a tree too, and it answers with
the value of that tree. -/
theorem expression_follows_tree {setting : Setting} (ends : setting.last.kind = .endOfInput) :
    (∀ (t : Tree .sum) (used rest : List Token), setting.limit ≤ 0 →
      used.map Token.symbol = t.symbols → Ended rest →
      (∀ x, t.value = some x → (expression setting (used ++ rest)).outcome = .ok (x, rest)) ∧
      (t.value = none → ∃ e, (expression setting (used ++ rest)).outcome = .error e)) ∧
    ∀ (tokens rest : List Token) (x : Binary64),
      (expression setting tokens).outcome = .ok (x, rest) →
      ∃ (t : Tree .sum) (used : List Token), tokens = used ++ rest ∧
        used.map Token.symbol = t.symbols ∧
        t.value = some x := by
  constructor
  · intro t used rest unlimited spelled ended
    have answered := answer_expression ⟨ends, unlimited⟩ t spelled ended.stops
    constructor
    · intro x valued
      rw [valued] at answered
      exact answer_eq_some_iff.mp answered
    · intro undefined
      rw [undefined] at answered
      exact answer_eq_none_iff.mp answered
  · intro tokens rest x read
    obtain ⟨used, split, folds, -⟩ := (expression_takes setting tokens ends).2 x rest read
    obtain ⟨t, spelled, valued⟩ := folds_iff_tree.mp folds
    exact ⟨t, used, split, spelled.symm, valued⟩

/-- The tree of `8 - 4 - 2 * -1`: both signs of minus, two ranks and grouping
to the left. -/
def countdown : Tree .sum :=
  .operation .minus rfl
    (.operation .minus rfl (.product (.factor (.literal "8"))) (.factor (.literal "4")))
    (.operation .times rfl (.factor (.literal "2")) (.negative (.literal "1")))

/-- The tree of `1 / (2 - 2)`, which has no value. -/
def hollow : Tree .sum :=
  .product (.operation .divide rfl (.factor (.literal "1"))
    (.group (.operation .minus rfl (.product (.factor (.literal "2")))
      (.factor (.literal "2")))))

/-- Before a unit the first tree is read to six, up to the slash; the second one has no
value, so it is refused. -/
theorem expression_follows_tree_countdown :
    let token (s : Spelling) : Token := ⟨s.1, s.2, 0, 0⟩
    let setting : Setting := ⟨⟨.endOfInput, [], 0, 0⟩, 0, 0⟩
    let month := [fixed .divide, Spelling.word "month"].map token
    setting.last.kind = .endOfInput ∧ setting.limit ≤ 0 ∧ Ended month ∧
      (∃ six, Binary64.read? "6" = some six ∧
        (expression setting (countdown.symbols.map token ++ month)).outcome =
          .ok (six, month)) ∧
      ∃ e, (expression setting (hollow.symbols.map token ++ [])).outcome = .error e := by
  intro token setting month
  have ended : Ended month := .inr ⟨_, _, _, rfl, rfl, by decide +kernel⟩
  obtain ⟨follows, -⟩ := expression_follows_tree (rfl : setting.last.kind = .endOfInput)
  obtain ⟨six, sixRead⟩ : ∃ six, Binary64.read? "6" = some six :=
    Option.isSome_iff_exists.mp (by decide +kernel)
  have valued : countdown.value = some six := by
    rw [← sixRead]
    decide +kernel
  exact ⟨rfl, Int.le_refl 0, ended,
    ⟨six, sixRead, (follows countdown _ month (Int.le_refl 0) (by decide +kernel) ended).1
      six valued⟩,
    (follows hollow _ [] (Int.le_refl 0) (by decide +kernel) (.inl (by simp))).2
      (by decide +kernel)⟩

end Persona.Grammar
