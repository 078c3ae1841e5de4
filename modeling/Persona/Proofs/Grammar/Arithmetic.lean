import Persona.Proofs.Grammar.Symbols

/-!
# Arithmetic in documents

An expression is a sum of products of factors, and its value is found by folding the
operators of each rank from the left. This module states that grammar without looking
at how expressions are read, and shows that what the reader of expressions takes derives
with the value it gives, and that it stops where no operator follows, except a slash in
front of a unit of time. `Persona.Proofs.Grammar.Folding` has the other direction.

The reader goes through the operators in one loop for all ranks. What keeps the ranks
apart is where it stops: after the right operand of a sum no product can go on, because
the operand has taken the product along.
-/

namespace Persona.Grammar

open Grammar.Parser
open Spelling (fixed word)

/-- The ranks of expressions, from the loosest. -/
inductive Rank where
  | sum | product | factor
deriving DecidableEq, Repr

/-- The rank of the right operands of a rank. -/
def Rank.tighter : Rank → Rank
  | .sum => .product
  | .product => .factor
  | .factor => .factor

/-- The rank that an operator makes. -/
def rankOf : Kind → Option Rank
  | .plus | .minus => some .sum
  | .times | .divide => some .product
  | _ => none

/-- The value of an operation; nothing can be divided by a zero of either sign. -/
def operation (kind : Kind) (left right : Binary64) : Option Binary64 :=
  match kind with
  | .plus => some (left.add right)
  | .minus => some (left.sub right)
  | .times => some (left.mul right)
  | .divide => if right.same .zero then none else some (left.div right)
  | _ => none

/-- The symbols are an expression of this rank, and this is its value. -/
inductive Folds : Rank → List Spelling → Binary64 → Prop where
  | literal {numeral : Text} {value : Binary64} (read : Binary64.read? numeral = some value) :
      Folds .factor [(.number, numeral)] value
  | negative {e : List Spelling} {value : Binary64} (folds : Folds .factor e value) :
      Folds .factor (fixed .minus :: e) value.neg
  | group {e : List Spelling} {value : Binary64} (folds : Folds .sum e value) :
      Folds .factor (fixed .parenOpen :: (e ++ [fixed .parenClose])) value
  | factor {e : List Spelling} {value : Binary64} (folds : Folds .factor e value) :
      Folds .product e value
  | product {e : List Spelling} {value : Binary64} (folds : Folds .product e value) :
      Folds .sum e value
  | operation {rank : Rank} {kind : Kind} {left right : List Spelling} {x y value : Binary64}
      (makes : rankOf kind = some rank) (first : Folds rank left x)
        (second : Folds rank.tighter right y)
      (defined : operation kind x y = some value) :
        Folds rank (left ++ fixed kind :: right) value

/-- Nothing here goes on with an expression whose operators bind more tightly
than `power`. -/
def Stops (power : Nat) (rest : List Spelling) : Prop :=
  bindingPower (nextKind rest) ≤ power ∨
    ∃ text others, rest = fixed .divide :: word text :: others ∧
      (TimeUnit.ofWord? text).isSome = true

/-- The rank of expressions whose operators bind more tightly than `power`. -/
def Rank.above (power : Nat) : Rank :=
  if power < 10 then .sum else if power < 20 then .product else .factor

/-- An operator has no more than the greatest binding power. -/
theorem bindingPower_le (kind : Kind) : bindingPower kind ≤ 20 := by
  cases kind <;> decide

/-- What binds makes a rank, and its right operand is of the next rank. -/
theorem rankOf_binding {kind : Kind} (binds : 0 < bindingPower kind) :
    ∃ rank, rankOf kind = some rank ∧ Rank.above (bindingPower kind) = rank.tighter := by
  cases kind <;> first | exact ⟨_, rfl, rfl⟩ | exact absurd binds (by decide)

/-- The binding power of an operator by the rank it makes. -/
theorem bindingPower_rankOf {kind : Kind} {rank : Rank} (makes : rankOf kind = some rank) :
    (rank = .sum ∧ bindingPower kind = 10 ∧ kind ≠ .divide) ∨
    (rank = .product ∧ bindingPower kind = 20) := by
  revert makes
  cases kind <;> simp [rankOf, bindingPower, eq_comm]

/-- An expression is one of every looser rank. -/
theorem Folds.loosen {rank : Rank} {e : List Spelling} {value : Binary64}
    (folds : Folds rank e value) :
    Folds .sum e value := by
  cases rank with
  | sum => exact folds
  | product => exact folds.product
  | factor => exact folds.factor.product

/-- What an operator makes is an expression of its rank and of the rank that
was asked for. -/
theorem Folds.above {power : Nat} {kind : Kind} {rank : Rank} {e : List Spelling}
    {value : Binary64} (folds : Folds rank e value) (makes : rankOf kind = some rank)
    (tight : power < bindingPower kind) :
    Folds (Rank.above power) e value := by
  unfold Rank.above
  split
  · exact folds.loosen
  · rcases bindingPower_rankOf makes with ⟨rfl, strength, -⟩ | ⟨rfl, strength⟩
    · omega
    · rwa [if_pos (by omega)]

/-- A factor is an expression of any rank. -/
theorem Folds.anyRank {e : List Spelling} {value : Binary64} (folds : Folds .factor e value)
    (rank : Rank) :
    Folds rank e value := by
  cases rank with
  | sum => exact folds.factor.product
  | product => exact folds.factor
  | factor => exact folds

/-- The reader has taken an expression above `power` and stopped where none goes on. -/
def Folded (power : Nat) (used : List Token) (value : Binary64) (left : List Token) : Prop :=
  Folds (Rank.above power) (used.map Token.symbol) value ∧ used ≠ [] ∧
    Stops power (left.map Token.symbol)

/-- The symbols may be the left operand of whatever goes on here. -/
structure Extends (power : Nat) (before : List Spelling) (x : Binary64)
    (rest : List Spelling) : Prop where
  folds : Folds (Rank.above power) before x
  joins : ∀ rank, rankOf (nextKind rest) = some rank → ¬ Stops power rest → Folds rank before x

/-- After an operation the result may be the left operand of whatever goes on: a product
cannot follow a sum, because the right operand stopped only where no product goes on. -/
theorem Extends.operation {power : Nat} {kind : Kind} {rank : Rank}
    {before right rest : List Spelling} {x y value : Binary64}
    (makes : rankOf kind = some rank) (tight : power < bindingPower kind)
    (first : Folds rank before x) (second : Folds rank.tighter right y)
    (defined : Grammar.operation kind x y = some value)
    (stops : Stops (bindingPower kind) rest) :
    Extends power (before ++ fixed kind :: right) value rest := by
  have joined : Folds rank (before ++ fixed kind :: right) value :=
    .operation makes first second defined
  refine ⟨joined.above makes tight, fun following makesNext goesOn => ?_⟩
  rcases bindingPower_rankOf makesNext with ⟨rfl, -⟩ | ⟨rfl, nextStrength⟩
  · exact joined.loosen
  · rcases bindingPower_rankOf makes with ⟨rfl, strength, -⟩ | ⟨rfl, strength⟩
    · rcases stops with weak | slash
      · omega
      · exact absurd (.inr slash) goesOn
    · exact joined

/-- The reader of a literal gives its value. -/
theorem literal_takes (t : Token) :
    Takes (literal t) fun used value _ => used = [] ∧ Binary64.read? t.value = some value := by
  intro setting tokens
  unfold literal
  split
  · exact TakesFrom.pure ⟨rfl, ‹_›⟩
  · exact TakesFrom.failAt t _

/-- The reader of an operation gives its value. -/
theorem apply_takes {operator : Token} (binds : 0 < bindingPower operator.kind)
    (x y : Binary64) :
    Takes (apply operator x y) fun used value _ => used = [] ∧
    operation operator.kind x y = some value := by
  intro setting tokens
  unfold apply operation
  cases kind : operator.kind
  case divide =>
    exact TakesFrom.ite (fun _ => TakesFrom.failAt _ _) fun apart =>
      TakesFrom.pure (by simp [apart])
  case plus => exact TakesFrom.pure ⟨rfl, rfl⟩
  case minus => exact TakesFrom.pure ⟨rfl, rfl⟩
  case times => exact TakesFrom.pure ⟨rfl, rfl⟩
  all_goals
    rw [kind] at binds
    exact absurd binds (by decide)

section Reader

variable {inner : Nat → Parser Binary64} {bound : Nat}

/-- An operand is a factor, if the expressions inside it are read right. -/
theorem operand_takes
    (takes : ∀ power setting tokens, tokens.length < bound →
      TakesFrom (inner power) setting tokens (Folded power))
    (setting : Setting) {tokens : List Token} (short : tokens.length ≤ bound) :
    TakesFrom (operand inner) setting tokens fun used value _ =>
      Folds .factor (used.map Token.symbol) value ∧ used ≠ [] := by
  refine TakesFrom.look fun t seen => ?_
  split
  · rename_i isNumber
    refine TakesFrom.take seen (by simp [isNumber]) fun rest _ => ?_
    refine (literal_takes t setting rest).imp ?_
    rintro _ value _ ⟨rfl, read⟩
    rw [List.map_singleton, Token.symbol_own isNumber rfl]
    exact ⟨.literal read, by simp⟩
  · rename_i isMinus
    refine TakesFrom.take seen (by simp [isMinus]) fun rest begins => ?_
    subst begins
    refine TakesFrom.bindFrom (takes signPower setting rest short) ?_
    rintro used value left rfl ⟨folds, -, -⟩
    refine TakesFrom.pure ⟨?_, by simp⟩
    simpa [Token.symbol_fixed isMinus rfl] using Folds.negative folds
  · rename_i isOpen
    refine TakesFrom.take seen (by simp [isOpen]) fun rest begins => ?_
    subst begins
    refine TakesFrom.bindFrom (takes 0 setting rest short) ?_
    rintro used value left rfl ⟨folds, -, -⟩
    refine TakesFrom.bind (Takes.fixed .parenClose (by decide) rfl) ?_
    rintro _ close left rfl ⟨rfl, isClose⟩
    refine TakesFrom.pure ⟨?_, by simp⟩
    simpa [Token.symbol_fixed isOpen rfl, isClose] using Folds.group folds
  · exact TakesFrom.failAt t _

/-- Where the loop does not go on, nothing goes on with the expression. -/
theorem stops_of_seen {power : Nat} {setting : Setting} {tokens : List Token}
    {operator following : Token}
    (ends : setting.last.kind = .endOfInput) (seen : Sees setting tokens operator)
    (seenNext : Sees setting tokens.tail following)
    (halted : ¬ (decide (power < bindingPower operator.kind) &&
      !(decide (operator.kind = .divide) && isTimeUnit following)) = true) :
    Stops power (tokens.map Token.symbol) := by
  cases tokens with
  | nil => exact .inl (Nat.zero_le power)
  | cons first rest =>
    obtain rfl : first = operator := seen
    by_cases tight : power < bindingPower first.kind
    · obtain ⟨isDivide, unit⟩ : first.kind = .divide ∧ isTimeUnit following = true := by
        simpa [tight] using halted
      obtain ⟨isName, named⟩ : following.kind = .name ∧
          (TimeUnit.ofWord? following.value).isSome = true := by
        simpa [isTimeUnit] using unit
      cases rest with
      | nil =>
        obtain rfl : setting.last = following := seenNext
        rw [ends] at isName
        cases isName
      | cons second others =>
        obtain rfl : second = following := seenNext
        refine .inr ⟨second.value, others.map Token.symbol, ?_, named⟩
        simp [Token.symbol_fixed isDivide rfl, Token.symbol_own isName rfl, word]
    · exact .inl (Nat.le_of_not_lt tight)

/-- The loop over the operators folds what is behind the first operand into it. -/
theorem operators_takes
    (takes : ∀ power setting tokens, tokens.length < bound →
      TakesFrom (inner power) setting tokens (Folded power))
    {power fuel : Nat} {before : List Spelling} {x : Binary64} (setting : Setting)
    {tokens : List Token} (short : tokens.length ≤ bound) (enough : tokens.length ≤ fuel)
    (extendable : Extends power before x (tokens.map Token.symbol)) :
    TakesFrom (operators inner power fuel x) setting tokens fun used value left =>
      Folds (Rank.above power) (before ++ used.map Token.symbol) value ∧
      Stops power (left.map Token.symbol) := by
  induction fuel generalizing before x tokens with
  | zero =>
    obtain rfl := List.length_eq_zero_iff.mp (Nat.le_zero.mp enough)
    exact TakesFrom.pure ⟨by simpa using extendable.folds, .inl (Nat.zero_le power)⟩
  | succ fuel inductionHypothesis =>
    refine TakesFrom.look fun operator seen => TakesFrom.lookAhead fun following seenNext => ?_
    refine TakesFrom.ite (fun goesOn => ?_) fun halted ends => ?_
    · obtain ⟨tight, notRate⟩ : power < bindingPower operator.kind ∧
          (operator.kind ≠ .divide ∨ isTimeUnit following = false) := by
        simpa using goesOn
      have binds := Nat.zero_lt_of_lt tight
      obtain ⟨rank, makes, tighter⟩ := rankOf_binding binds
      have bare : operator.kind.carriesText = false := by
        cases kind : operator.kind <;>
          first | rfl | (rw [kind] at binds; exact absurd binds (by decide))
      refine TakesFrom.take seen (by rintro isEnd; simp [isEnd, bindingPower] at binds)
        fun rest begins => ?_
      subst begins
      have first : Folds rank before x := by
        refine extendable.joins rank (by simpa [nextKind, Token.symbol] using makes) ?_
        rintro (weak | ⟨text, others, spelled, unit⟩)
        · exact absurd tight (Nat.not_lt.mpr (by simpa [nextKind, Token.symbol] using weak))
        · obtain ⟨isDivide, spelledRest⟩ := List.cons.inj spelled
          obtain ⟨second, others, rfl, isWord, -⟩ := List.map_eq_cons_iff.mp spelledRest
          obtain rfl : second = following := seenNext
          obtain ⟨isName, named⟩ := Token.value_of_symbol isWord rfl
          have isUnit : isTimeUnit second = true := by simp [isTimeUnit, isName, named, unit]
          exact notRate.elim (absurd (congrArg Prod.fst isDivide)) (by simp [isUnit])
      refine TakesFrom.bindFrom (takes _ setting rest short) ?_
      rintro used y left rfl ⟨folds, -, stops⟩
      rw [tighter] at folds
      refine TakesFrom.bind (apply_takes binds x y) ?_
      rintro _ value rest same ⟨rfl, defined⟩
      obtain rfl : left = rest := same
      simp only [List.length_cons, List.length_append] at short enough
      refine (inductionHypothesis (by omega) (by omega)
        (Extends.operation makes tight first folds defined stops)).imp ?_
      rintro more value left ⟨result, stopped⟩
      refine ⟨?_, stopped⟩
      simpa [Token.symbol_fixed rfl bare] using result
    · exact TakesFrom.pure
        ⟨by simpa using extendable.folds, stops_of_seen ends seen seenNext halted⟩ ends

end Reader

/-- What the reader of expressions takes derives with its value, and nothing goes on
where it stops. -/
theorem expressionWithin_takes (fuel power : Nat) (setting : Setting) {tokens : List Token}
    (enough : tokens.length < fuel) :
    TakesFrom (expressionWithin fuel power) setting tokens (Folded power) := by
  induction fuel generalizing power setting tokens with
  | zero => exact absurd enough (Nat.not_lt_zero _)
  | succ fuel inductionHypothesis =>
    have takes : ∀ power setting tokens, tokens.length < fuel →
        TakesFrom (expressionWithin fuel power) setting tokens (Folded power) :=
      fun power setting _ enough => inductionHypothesis power setting enough
    refine TakesFrom.nested fun setting => ?_
    refine TakesFrom.bindFrom (operand_takes takes setting (Nat.le_of_lt_succ enough)) ?_
    rintro used x left rfl ⟨folds, some⟩
    have short : left.length ≤ fuel := by
      simp only [List.length_append] at enough
      omega
    refine (operators_takes takes setting short short ⟨folds.anyRank _, fun rank _ _ =>
      folds.anyRank rank⟩).imp ?_
    rintro more value rest ⟨result, stopped⟩
    exact ⟨by simpa using result, by simp [some], stopped⟩

/-- An expression is a sum, and nothing goes on where it stops. -/
theorem expression_takes : Takes expression (Folded 0) :=
  Takes.ofLength (p := fun length => expressionWithin (length + 1) 0) fun setting _ =>
    expressionWithin_takes _ 0 setting (Nat.lt_succ_self _)

end Persona.Grammar
