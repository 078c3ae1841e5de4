import Persona.Grammar.Document
import Persona.Proofs.Personality.Spelling

/-!
# Reading spelled tokens

A parser reads a list of spellings when it takes tokens so spelled, wherever they
stand, without noting anything, and leaves tokens spelled by the rest. The rules
follow the way parsers are put together, so that a proof about a parser has the
shape of the parser. Every judgment says how many levels the parser may go deeper:
the limit in force must leave room for them.
-/

namespace Persona.Grammar

open Grammar.Parser

/-- The end of the input ends it, and the limit leaves room for so many levels. -/
structure Setting.Allows (setting : Setting) (levels : Nat) : Prop where
  ends : setting.last.kind = .endOfInput
  room : setting.limit ≤ 0 ∨ (setting.depth + levels : Int) ≤ setting.limit

/-- The parser takes tokens spelled `before` to a value of which `post` holds and leaves
tokens spelled `after`, without an event. -/
def Reads {α : Type} (p : Parser α) (levels : Nat) (before : List Spelling) (post : α → Prop)
    (after : List Spelling) : Prop :=
  ∀ setting tokens, setting.Allows levels → tokens.map Token.spelling = before →
    ∃ value left, p setting tokens = ⟨[], .ok (value, left)⟩ ∧ post value ∧
      left.map Token.spelling = after

/-- The kind of the next token; past the last one it is the end. -/
def nextKind (spellings : List Spelling) : Kind :=
  (spellings.head?.map Prod.fst).getD .endOfInput

/-- The token is spelled like the first of these, or is the end when there is none. -/
def Shows (spellings : List Spelling) (t : Token) : Prop :=
  match spellings with
  | [] => t.kind = .endOfInput
  | s :: _ => t.spelling = s

/-- A shown token has the kind of the next one. -/
theorem Shows.kind {spellings : List Spelling} {t : Token} (shown : Shows spellings t) :
    t.kind = nextKind spellings := by
  cases spellings with
  | nil => exact shown
  | cons s spellings => exact congrArg Prod.fst shown

namespace Reads

variable {α β : Type} {levels : Nat} {before middle after : List Spelling}

/-- Reading nothing. -/
theorem pure {post : α → Prop} {value : α} (holds : post value) :
    Reads (Pure.pure value) levels before post before :=
  fun _ tokens _ spelled => ⟨value, tokens, rfl, holds, spelled⟩

/-- Reading one part and then another. -/
theorem bind {p : Parser α} {next : α → Parser β} {first : α → Prop} {post : β → Prop}
    (reads : Reads p levels before first middle)
    (continues : ∀ value, first value → Reads (next value) levels middle post after) :
    Reads (p >>= next) levels before post after := by
  intro setting tokens allows spelled
  obtain ⟨value, left, firstRead, holds, leftSpelled⟩ := reads setting tokens allows spelled
  obtain ⟨result, rest, secondRead, resultHolds, restSpelled⟩ :=
    continues value holds setting left allows leftSpelled
  refine ⟨result, rest, ?_, resultHolds, restSpelled⟩
  change Parser.bind p next setting tokens = _
  simp [Parser.bind, firstRead, secondRead]

/-- Reading a part whose value is known and then another. -/
theorem andThen {p : Parser α} {next : α → Parser β} {value : α} {post : β → Prop}
    (reads : Reads p levels before (· = value) middle)
    (continues : Reads (next value) levels middle post after) :
    Reads (p >>= next) levels before post after := by
  refine bind reads ?_
  rintro _ rfl
  exact continues

/-- A weaker conclusion. -/
theorem imp {p : Parser α} {post weaker : α → Prop} (reads : Reads p levels before post after)
    (implies : ∀ value, post value → weaker value) : Reads p levels before weaker after := by
  intro setting tokens allows spelled
  obtain ⟨value, left, read, holds, leftSpelled⟩ := reads setting tokens allows spelled
  exact ⟨value, left, read, implies value holds, leftSpelled⟩

/-- More room than is needed. -/
theorem mono {p : Parser α} {post : α → Prop} {more : Nat}
    (reads : Reads p levels before post after)
    (fewer : levels ≤ more) : Reads p more before post after := by
  intro setting tokens allows spelled
  refine reads setting tokens ⟨allows.ends, ?_⟩ spelled
  rcases allows.room with unlimited | room
  · exact .inl unlimited
  · right
    omega

/-- One level deeper. -/
theorem nested {p : Parser α} {post : α → Prop} (reads : Reads p levels before post after) :
    Reads (Parser.nested p) (levels + 1) before post after := by
  intro setting tokens allows spelled
  have room : ¬ (0 < setting.limit && setting.limit < setting.depth + 1) = true := by
    rcases allows.room with unlimited | room
    · simp; omega
    · simp; omega
  have deeper : Setting.Allows { setting with depth := setting.depth + 1 } levels := by
    refine ⟨allows.ends, ?_⟩
    rcases allows.room with unlimited | room
    · exact .inl unlimited
    · right
      push_cast at room ⊢
      omega
  obtain ⟨value, left, read, holds, leftSpelled⟩ := reads _ tokens deeper spelled
  refine ⟨value, left, ?_, holds, leftSpelled⟩
  unfold Parser.nested
  rw [if_neg room]
  exact read

/-- A parser that is told how many tokens there are. -/
theorem ofLength {p : Nat → Parser α} {post : α → Prop}
    (reads : Reads (p before.length) levels before post after) :
    Reads (fun setting tokens => p tokens.length setting tokens) levels before post after := by
  intro setting tokens allows spelled
  have sameLength : tokens.length = before.length := by rw [← spelled, List.length_map]
  obtain ⟨value, left, read, rest⟩ := reads setting tokens allows spelled
  exact ⟨value, left, by rw [← read, ← sameLength], rest⟩

/-- Looking ahead. -/
theorem peek (ahead : Nat) :
    Reads (Parser.peek ahead) levels before (Shows (before.drop ahead)) before := by
  intro setting tokens allows spelled
  refine ⟨_, tokens, rfl, ?_, spelled⟩
  subst spelled
  rw [← List.map_drop]
  cases remaining : tokens.drop ahead with
  | nil =>
    have past : tokens[ahead]? = none := by simpa using remaining
    rw [past]
    exact allows.ends
  | cons t others =>
    have there : tokens[ahead]? = some t := by
      rw [← List.head?_drop, remaining]
      rfl
    rw [there]
    rfl

/-- Looking at the next token. -/
theorem current : Reads Parser.current levels before (Shows before) before := peek 0

/-- Deciding by the next token, which stands somewhere. -/
theorem atToken {kind : Kind} {value : Text} {next : Token → Parser α} {post : α → Prop}
    (reads : ∀ start stop, Reads (next ⟨kind, value, start, stop⟩) levels ((kind, value) ::
      before) post after) :
    Reads (Parser.current >>= next) levels ((kind, value) :: before) post after := by
  refine bind current fun t shown => ?_
  obtain ⟨k, v, start, stop⟩ := t
  obtain ⟨rfl, rfl⟩ := Prod.mk.inj (show (k, v) = (kind, value) from shown)
  exact reads start stop

/-- Taking the next token. -/
theorem advance {s : Spelling} :
    Reads Parser.advance levels (s :: before) (fun t => t.spelling = s) before := by
  intro setting tokens allows spelled
  obtain ⟨t, left, rfl, shown, leftSpelled⟩ := List.map_eq_cons_iff.mp spelled
  exact ⟨t, left, rfl, shown, leftSpelled⟩

/-- Comparing the kind of the next token. -/
theorem check (kind : Kind) :
    Reads (Parser.check kind) levels before (fun holds =>
      holds = decide (nextKind before = kind)) before :=
  bind current fun t shown => pure (by rw [shown.kind])

/-- Taking a token of the kind that is there. -/
theorem expect {kind : Kind} {value : Text} :
    Reads (Parser.expect kind) levels ((kind, value) :: before) (fun t =>
      t.spelling = (kind, value)) before := by
  refine bind current fun t shown => ?_
  rw [if_pos (show t.kind = kind from shown.kind)]
  exact advance

/-- Reading between parentheses. -/
theorem parenthesized {p : Parser α} {post : α → Prop}
    (reads : Reads p levels before post (.fixed .parenClose :: after)) :
    Reads (Parser.parenthesized p) levels (.fixed .parenOpen :: before) post after :=
  bind expect fun _ _ => bind reads fun _ holds => bind expect fun _ _ => pure holds

end Reads

/-- No operator continues a number here: none comes next, or a slash before a
unit of time. -/
def EndsNumber (rest : List Spelling) : Prop :=
  bindingPower (nextKind rest) = 0 ∨
    ∃ word others, rest = .fixed .divide :: .word word :: others ∧
      (TimeUnit.ofWord? word).isSome = true

section Numbers

variable {levels : Nat} {rest : List Spelling}

/-- The value of a literal that can be read. -/
theorem literal_reads {t : Token} {numeral : Text} {value : Binary64}
    (spelled : t.spelling = (.number, numeral)) (read : Binary64.read? numeral = some value) :
    Reads (literal t) levels rest (· = value) rest := by
  have same : t.value = numeral := congrArg Prod.snd spelled
  unfold literal
  rw [same, read]
  exact Reads.pure rfl

/-- Where no operator comes next, the first operand is the whole expression. -/
theorem operators_stop (inner : Nat → Parser Binary64) (power fuel : Nat) (left : Binary64)
    (ends : EndsNumber rest) :
    Reads (operators inner power fuel left) levels rest (· = left) rest := by
  cases fuel with
  | zero => exact Reads.pure rfl
  | succ fuel =>
    refine Reads.bind Reads.current fun operator shown =>
      Reads.bind (Reads.peek 1) fun following next => ?_
    have stops : ¬ (decide (power < bindingPower operator.kind) &&
        !(decide (operator.kind = .divide) && isTimeUnit following)) = true := by
      rcases ends with none | ⟨word, others, rfl, isUnit⟩
      · simp [shown.kind, none]
      · have unit : isTimeUnit following = true := by
          obtain ⟨kind, value, start, stop⟩ := following
          obtain ⟨rfl, rfl⟩ := Prod.mk.inj (show (kind, value) = (Kind.name, word) from next)
          simpa [isTimeUnit] using isUnit
        have slash : operator.kind = .divide := shown.kind
        simp [slash, unit]
    rw [if_neg stops]
    exact Reads.pure rfl

/-- A numeral is an operand. -/
theorem operand_numeral (inner : Nat → Parser Binary64) {numeral : Text} {value : Binary64}
    (read : Binary64.read? numeral = some value) :
    Reads (operand inner) levels ((.number, numeral) :: rest) (· = value) rest := by
  exact Reads.atToken fun _ _ => Reads.bind Reads.advance fun _ _ => literal_reads rfl read

/-- A minus sign and what binds more tightly than it are an operand. -/
theorem operand_negative {inner : Nat → Parser Binary64} {operand : List Spelling}
    {value : Binary64} (reads : Reads (inner signPower) levels operand (· = value) rest) :
    Reads (Grammar.operand inner) levels (.fixed .minus :: operand) (· = value.neg) rest := by
  refine Reads.atToken fun _ _ => Reads.bind Reads.advance fun _ _ => Reads.bind reads ?_
  rintro _ rfl
  exact Reads.pure rfl

/-- An operand that no operator follows is an expression, which is one level deeper. -/
theorem expressionWithin_operand {fuel power : Nat} {operand : List Spelling}
    {value : Binary64}
    (reads : Reads (Grammar.operand (expressionWithin fuel)) levels operand (· = value) rest)
    (ends : EndsNumber rest) :
    Reads (expressionWithin (fuel + 1) power) (levels + 1) operand (· = value) rest := by
  refine Reads.nested (Reads.bind reads ?_)
  rintro _ rfl
  exact operators_stop _ power fuel _ ends

/-- A numeral is an expression, and so is one after a minus sign. -/
theorem expression_reads (negative : Bool) {numeral : Text} {value : Binary64}
    (read : Binary64.read? numeral = some value) (ends : EndsNumber rest) :
    Reads expression 2 (Spelling.signed negative numeral ++ rest)
      (· = if negative then value.neg else value) rest := by
  refine Reads.ofLength (p := fun length => expressionWithin (length + 1) 0) ?_
  cases negative with
  | false =>
    exact (expressionWithin_operand (operand_numeral _ read) ends).mono (by decide : 1 ≤ 2)
  | true => exact expressionWithin_operand (operand_negative (expressionWithin_operand
      (operand_numeral _ read) ends)) ends

/-- A numeral with a finite value is a number, and so is one after a minus sign. -/
theorem number_signed (negative : Bool) {numeral : Text} {code : Fin Binary64.codes}
    (read : Binary64.read? numeral = some (.finite false code)) (ends : EndsNumber rest) :
    Reads number 2 (Spelling.signed negative numeral ++ rest) (· = .finite negative code)
      rest := by
  refine Reads.bind Reads.current fun _ _ =>
    Reads.andThen (expression_reads negative read ends) ?_
  cases negative with
  | false => exact Reads.pure rfl
  | true => exact Reads.pure rfl

/-- A number is read back from its sign and its magnitude. -/
theorem number_reads {x : Binary64} (finite : x.isFinite = true) (ends : EndsNumber rest) :
    Reads number 2 (Spelling.number x ++ rest) (· = x) rest := by
  cases x with
  | nan => cases finite
  | infinity negative => cases finite
  | finite negative code =>
    exact number_signed negative (Binary64.read?_write Layout.plain (.finite false code)
      rfl) ends

/-- The magnitude of a whole number, and the numbers that have it. -/
theorem toInt?_some {x : Binary64} {n : Int} (whole : x.toInt? = some n) :
    ∃ code : Fin Binary64.codes,
      Binary64.numerator code = n.natAbs * Binary64.denominator code ∧
      (Binary64.finite (decide (n < 0)) code).toInt? = some n := by
  cases x with
  | nan => cases whole
  | infinity negative => cases whole
  | finite negative code =>
    simp only [Binary64.toInt?] at whole
    split at whole
    · rename_i divides
      have sameMagnitude : n.natAbs = Binary64.numerator code / Binary64.denominator code := by
        generalize Binary64.numerator code / Binary64.denominator code = magnitude at whole ⊢
        cases negative <;> simp at whole <;> omega
      refine ⟨code, ?_, ?_⟩
      · rw [sameMagnitude]
        exact (Nat.div_mul_cancel (Nat.dvd_of_mod_eq_zero divides)).symm
      · simp only [Binary64.toInt?, if_pos divides, ← sameMagnitude, Option.some.injEq,
          decide_eq_true_eq]
        split <;> omega
    · cases whole

/-- A count is read back from its sign and its digits. -/
theorem count_reads {n : Int} (counts : IsCount n) (ends : EndsNumber rest) :
    Reads count 2 (Spelling.count n ++ rest) (· = n) rest := by
  obtain ⟨lower, upper, x, whole⟩ := counts
  obtain ⟨code, magnitude, value⟩ := toInt?_some whole
  refine Reads.bind Reads.current fun _ _ =>
    Reads.andThen (number_signed _ (Binary64.read?_ofNat magnitude) ends) ?_
  rw [value]
  have inRange : ¬ (decide (n < -0x8000000000000000) || decide (0x8000000000000000 ≤ n)) =
      true := by
    simp
    omega
  dsimp only
  rw [if_neg inRange]
  exact Reads.pure rfl

end Numbers

section Words

variable {levels : Nat} {rest : List Spelling}

/-- A name is read back, however it was printed. -/
theorem name_reads (role text : Text) :
    Reads (name role) levels (.named text :: rest) (· = text) rest := by
  unfold Spelling.named
  split
  · exact Reads.atToken fun _ _ => Reads.bind Reads.advance fun _ _ => Reads.pure rfl
  · exact Reads.atToken fun _ _ => Reads.bind Reads.advance fun _ _ => Reads.pure rfl

/-- A quoted text is read back as a name. -/
theorem name_quoted (role text : Text) :
    Reads (name role) levels (.quoted text :: rest) (· = text) rest := by
  exact Reads.atToken fun _ _ => Reads.bind Reads.advance fun _ _ => Reads.pure rfl

/-- A quoted text is read back as a string. -/
theorem string_reads (text : Text) :
    Reads string levels (.quoted text :: rest) (· = text) rest := by
  refine Reads.bind Reads.expect fun t shown => Reads.pure ?_
  exact congrArg Prod.snd shown

/-- The word for a unit is read back, with and without the plural ending. -/
theorem timeUnit_reads {word : Text} {unit : TimeUnit}
    (named : TimeUnit.ofWord? word = some unit) :
    Reads timeUnit levels (.word word :: rest) (· = unit) rest := by
  refine Reads.atToken fun _ _ => ?_
  dsimp only
  rw [if_pos rfl, named]
  exact Reads.bind Reads.advance fun _ _ => Reads.pure rfl

/-- The word for a level is read back. -/
theorem level_reads {word : Text} {level : Level} (named : Level.ofWord? word = some level) :
    Reads Grammar.level levels (.word word :: rest) (· = level) rest := by
  refine Reads.atToken fun _ _ => ?_
  dsimp only
  rw [if_pos (by rfl), named]
  exact Reads.bind Reads.advance fun _ _ => Reads.pure rfl

/-- Each unit is named by its word and by the plural of its word. -/
theorem ofWord?_unit {unit : TimeUnit} (listed : unit ∈ TimeUnit.all) :
    TimeUnit.ofWord? unit.text = some unit ∧
    TimeUnit.ofWord? (unit.text ++ "s") = some unit := by
  have words : ∀ unit ∈ TimeUnit.all, TimeUnit.ofWord? unit.text = some unit ∧
      TimeUnit.ofWord? (unit.text ++ "s") = some unit := by decide +kernel
  exact words unit listed

/-- Each level is named by its word. -/
theorem ofWord?_level {level : Level} (listed : level ∈ Level.all) :
    Level.ofWord? level.text = some level := by
  have words : ∀ level ∈ Level.all, Level.ofWord? level.text = some level := by decide +kernel
  exact words level listed

end Words

/-- Scanning a text that spells a list of tokens and reading them gives what the
parser reads. -/
theorem Reads.scan {α : Type} {levels : Nat} {p : Parser α} {text : Text}
    {spellings : List Spelling} {value : α}
    {limit : Int} (reads : Reads p levels spellings (· = value) [])
    (spelled : text.Spells spellings) (room : limit ≤ 0 ∨ (levels : Int) ≤ limit) :
    ∃ stream, Token.scan text = .ok stream ∧ stream.last.kind = .endOfInput ∧
      p ⟨stream.last, limit, 0⟩ stream.tokens = ⟨[], .ok (value, [])⟩ := by
  obtain ⟨stream, scanned, sameTokens, ends⟩ :=
    spelled.collect (text.characters.length + 1) 0 (Nat.lt_succ_self _)
  refine ⟨stream, scanned, ends, ?_⟩
  obtain ⟨result, left, read, rfl, leftSpelled⟩ := reads ⟨stream.last, limit, 0⟩ stream.tokens
    ⟨ends, by simpa using room⟩ sameTokens
  rw [read, List.map_eq_nil_iff.mp leftSpelled]

end Persona.Grammar
