import Persona.Grammar.Parser

/-!
# Numbers in a document

Wherever a number is expected an arithmetic expression may stand; it is folded
to its value while it is read. Sums bind more weakly than products and both
group to the left; a minus sign binds more tightly than either. A slash before a
unit of time belongs to the rate around the expression, not to the expression.

Intermediate results may be infinite; the value of the whole must be finite.
-/

namespace Persona.Grammar

open Grammar.Parser

/-- How tightly an operator binds; tokens that are no operators do not bind. -/
def bindingPower : Kind → Nat
  | .plus => 10
  | .minus => 10
  | .times => 20
  | .divide => 20
  | _ => 0

/-- How tightly a minus sign binds to what follows it. -/
def signPower : Nat := 30

/-- A word that names a unit of time. -/
def isTimeUnit (token : Token) : Bool :=
  token.kind = .name && (TimeUnit.ofWord? token.value).isSome

/-- The value of an operation, which is reported at its operator when it has none. -/
def apply (operator : Token) (left right : Binary64) : Parser Binary64 :=
  match operator.kind with
  | .plus => pure (left.add right)
  | .minus => pure (left.sub right)
  | .times => pure (left.mul right)
  | _ =>
    if right.same .zero then failAt operator .divisionByZero
    else pure (left.div right)

/-- The value of a literal; one too large for a number is refused. -/
def literal (token : Token) : Parser Binary64 :=
  match Binary64.read? token.value with
  | some value => pure value
  | none => failAt token (.invalidNumber token.value)

/-- A literal, a negated operand or an expression in parentheses, where `expression power`
reads an expression whose operators bind more tightly than `power`. -/
def operand (expression : Nat → Parser Binary64) : Parser Binary64 := do
  let token ← current
  match token.kind with
  | .number =>
    let _ ← advance
    literal token
  | .minus =>
    let _ ← advance
    let value ← expression signPower
    return value.neg
  | .parenOpen =>
    let _ ← advance
    let value ← expression 0
    let _ ← expect .parenClose
    return value
  | _ => failAt token (.expectedNumber token)

/-- The operators after a first operand, as long as they bind more tightly
than `power`. -/
def operators (expression : Nat → Parser Binary64) (power : Nat) :
    (fuel : Nat) → Binary64 → Parser Binary64
  | 0, left => pure left
  | fuel + 1, left => do
    let operator ← current
    let following ← peek 1
    if power < bindingPower operator.kind &&
      !(operator.kind = .divide && isTimeUnit following) then
      let _ ← advance
      let right ← expression (bindingPower operator.kind)
      let value ← apply operator left right
      operators expression power fuel value
    else return left

/-- An expression whose operators bind more tightly than `power`. Each level of nesting
takes at least one token, so `fuel` above the number of tokens is never used up. -/
def expressionWithin : (fuel : Nat) → (power : Nat) → Parser Binary64
  | 0, _ => fail .expectedNumber
  | fuel + 1, power => nested do
    let left ← operand (expressionWithin fuel)
    operators (expressionWithin fuel) power fuel left

/-- An arithmetic expression, folded to its value. -/
def expression : Parser Binary64 := fun setting tokens =>
  expressionWithin (tokens.length + 1) 0 setting tokens

/-- An expression with a finite value. -/
def number : Parser Binary64 := do
  let token ← current
  let value ← expression
  if value.isFinite then return value else failAt token .numberOutOfRange

/-- An expression whose value is a whole number of sixty-four bits. -/
def count : Parser Int := do
  let token ← current
  let value ← number
  match value.toInt? with
  | none => failAt token (.notWhole value)
  | some n =>
    if n < -0x8000000000000000 || 0x8000000000000000 ≤ n then
      failAt token (.countOutOfRange value)
    else return n

end Persona.Grammar
