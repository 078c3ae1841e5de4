/-!
# Binary floating-point numbers

Strengths, rates and thresholds are binary64 numbers. A finite number is a sign
and a code: codes count the magnitudes upwards from zero, the smallest positive
number having code one, so that comparing codes compares magnitudes. There is
one NaN.

Everything here is exact integer arithmetic; no machine floating-point operation
is involved, so each operation can be evaluated and reasoned about.
-/

namespace Persona

/-- The number of codes that share an exponent: a code has fifty-two bits below it. -/
abbrev Binary64.binade : Nat := 0x10000000000000

/-- The number of finite magnitudes, which is where the code of an infinity would be. -/
abbrev Binary64.codes : Nat := 0x7FF0000000000000

/-- A binary64 number. The lower fifty-two bits of a code are the fraction, the bits above
them the biased exponent, as in the interchange format. -/
inductive Binary64 where
  | nan
  | infinity (negative : Bool)
  | finite (negative : Bool) (code : Fin Binary64.codes)
deriving DecidableEq, Repr

namespace Binary64

/-- The code of zero. -/
def zeroCode : Fin codes := ⟨0, by decide⟩

/-- Positive zero. -/
def zero : Binary64 := .finite false zeroCode

instance : Inhabited Binary64 := ⟨zero⟩

/-- Neither NaN nor an infinity. -/
def isFinite : Binary64 → Bool
  | .finite _ _ => true
  | _ => false

/-- The integer `m` of the magnitude `m · 2 ^ e`. -/
def significand (code : Nat) : Nat :=
  if code < binade then code else binade + code % binade

/-- The exponent `e` of the magnitude `m · 2 ^ e`, raised by 1074 so that it is
never negative. -/
def exponent (code : Nat) : Nat :=
  code / binade - 1

/-- The numerator of the magnitude over `denominator`. -/
def numerator (code : Nat) : Nat :=
  significand code * Nat.pow 2 (exponent code - 1074)

/-- The denominator of the magnitude, a power of two. -/
def denominator (code : Nat) : Nat :=
  Nat.pow 2 (1074 - exponent code)

/-- Divide and round to the nearest integer; a half goes to the even neighbour. -/
def divideToEven (num den : Nat) : Nat :=
  let quotient := num / den
  let twice := 2 * (num % den)
  if den < twice || (twice = den && quotient % 2 = 1) then quotient + 1 else quotient

/-- The number of the grid, counted in units of `2 ^ (scale - 1074)`, nearest to
the quotient. -/
def gridPoint (num den scale : Nat) : Nat :=
  divideToEven (num * Nat.pow 2 (1074 - scale)) (den * Nat.pow 2 (scale - 1074))

/-- The scale at which the quotient has fifty-three significant bits, or the smallest
scale there is. The logarithms leave one of two scales open; the quotient decides. -/
def scaleOf (num den : Nat) : Nat :=
  let low := num.log2 + 1074 - den.log2 - 53
  if 2 * binade * (den * Nat.pow 2 (low - 1074)) ≤ num * Nat.pow 2 (1074 - low) then low +
    1 else low

/-- The magnitude nearest to a quotient; a half goes to the even significand, and what
would need a larger exponent is infinite. -/
def ofRatio (negative : Bool) (num den : Nat) : Binary64 :=
  if num = 0 then .finite negative zeroCode
  else
    let scale := scaleOf num den
    let code := scale * binade + gridPoint num den scale
    if h : code < codes then .finite negative ⟨code, h⟩ else .infinity negative

/-- The number nearest to an integer over a positive denominator; an exact zero takes the
given sign. -/
def ofSignedRatio (zeroNegative : Bool) (num : Int) (den : Nat) : Binary64 :=
  if num = 0 then .finite zeroNegative zeroCode else ofRatio (num < 0) num.natAbs den

/-- Change the sign; NaN stays. -/
def neg : Binary64 → Binary64
  | .nan => .nan
  | .infinity negative => .infinity !negative
  | .finite negative code => .finite (!negative) code

/-- The magnitude; NaN stays. -/
def abs : Binary64 → Binary64
  | .nan => .nan
  | .infinity _ => .infinity false
  | .finite _ code => .finite false code

/-- The magnitude as an integer multiple of the smallest positive number,
with its sign. -/
def units (negative : Bool) (code : Nat) : Int :=
  let magnitude : Int := ↑(significand code * Nat.pow 2 (exponent code))
  if negative then -magnitude else magnitude

/-- The sum, rounded once. An exact zero is negative only when both terms are. -/
def add : Binary64 → Binary64 → Binary64
  | .nan, _ => .nan
  | _, .nan => .nan
  | .infinity a, .infinity b => if a = b then .infinity a else .nan
  | .infinity a, .finite _ _ => .infinity a
  | .finite _ _, .infinity b => .infinity b
  | .finite a x, .finite b y => ofSignedRatio (a && b) (units a x + units b y) (Nat.pow 2 1074)

/-- The difference, rounded once. -/
def sub (x y : Binary64) : Binary64 := add x (neg y)

/-- The product, rounded once. -/
def mul : Binary64 → Binary64 → Binary64
  | .nan, _ => .nan
  | _, .nan => .nan
  | .infinity a, .infinity b => .infinity (a != b)
  | .infinity a, .finite b y => if y.val = 0 then .nan else .infinity (a != b)
  | .finite a x, .infinity b => if x.val = 0 then .nan else .infinity (a != b)
  | .finite a x, .finite b y =>
    ofRatio (a != b) (numerator x * numerator y) (denominator x * denominator y)

/-- The quotient, rounded once. A zero divisor gives an infinity, and zero by zero NaN. -/
def div : Binary64 → Binary64 → Binary64
  | .nan, _ => .nan
  | _, .nan => .nan
  | .infinity _, .infinity _ => .nan
  | .infinity a, .finite b _ => .infinity (a != b)
  | .finite a _, .infinity b => .finite (a != b) zeroCode
  | .finite a x, .finite b y =>
    if y.val = 0 then if x.val = 0 then .nan else .infinity (a != b)
    else ofRatio (a != b) (numerator x * denominator y) (denominator x * numerator y)

/-- The place of a number on the line, where both zeros meet; NaN has none. -/
def rank? : Binary64 → Option Int
  | .nan => none
  | .infinity negative => some (if negative then -(codes : Int) else codes)
  | .finite negative code => some (if negative then -(code.val : Int) else code.val)

/-- Numerically less; false as soon as a NaN is involved. -/
def lt (x y : Binary64) : Bool :=
  match x.rank?, y.rank? with
  | some a, some b => a < b
  | _, _ => false

/-- Numerically less or equal; false as soon as a NaN is involved. -/
def le (x y : Binary64) : Bool :=
  match x.rank?, y.rank? with
  | some a, some b => a ≤ b
  | _, _ => false

/-- Numerically equal: the two zeros are, and a NaN equals nothing. -/
def same (x y : Binary64) : Bool :=
  match x.rank?, y.rank? with
  | some a, some b => a == b
  | _, _ => false

/-- The integer part of a finite number; the fraction is dropped. -/
def truncated : Binary64 → Int
  | .finite negative code =>
    let magnitude : Int := ↑(numerator code / denominator code)
    if negative then -magnitude else magnitude
  | _ => 0

/-- The integer a number is equal to, if it is one. -/
def toInt? : Binary64 → Option Int
  | .finite negative code =>
    if numerator code % denominator code = 0 then
      let magnitude : Int := ↑(numerator code / denominator code)
      some (if negative then -magnitude else magnitude)
    else none
  | _ => none

end Binary64

end Persona
