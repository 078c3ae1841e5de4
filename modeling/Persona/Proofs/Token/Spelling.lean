import Persona.Token.Lexer
import Persona.Proofs.Text.Characters

/-!
# Which tokens a text spells

The spelling of a token is what it says, apart from where it stands. A text without
comments spells a list of them, and scanning such a text gives exactly these tokens,
whatever offset it starts at.

Texts are put together from pieces, and the last token of a piece might run on into
the next one: a name into a letter, a minus sign into an equals sign, a slash into a
comment. Where it does not, the pieces may be spelled one by one.
-/

namespace Persona

/-- What a token says: its kind and its value, without its place. -/
abbrev Spelling : Type := Kind × Text

/-- The spelling of a token. -/
def Token.spelling (t : Token) : Spelling := (t.kind, t.value)

/-- A token of this kind would take the character that follows it, or open a
comment with it. -/
def Kind.runsOn (kind : Kind) (code : Nat) : Bool :=
  match kind with
  | .number => Character.isAsciiDigit code || Token.spoilsNumber code
  | .plus => code = 61
  | .minus => code = 61 || code = 62
  | .divide => code = 47 || code = 42
  | kind => (kind = .name || kind.isKeyword) && Token.continuesName code

namespace Token

open Character (isSeparator isLetter isAsciiDigit)

/-- A run of characters of one class ends where the class does. -/
theorem run_append (inside : Character → Bool) (run more : List Character)
    (within : ∀ c ∈ run, inside c = true) (ends : ∀ c ∈ more.head?, inside c = false) :
    (run ++ more).takeWhile inside = run ∧ (run ++ more).dropWhile inside = more := by
  rw [List.takeWhile_append_of_pos within, List.dropWhile_append_of_pos within]
  cases more with
  | nil => simp
  | cons c more => simp [ends c rfl]

/-- Every list is a run of a class and what the run ends in front of. -/
theorem run_split (inside : Character → Bool) (cs : List Character) :
    ∃ run more, cs = run ++ more ∧ (∀ c ∈ run, inside c = true) ∧ ∀ c ∈ more.head?,
      inside c = false := by
  refine ⟨cs.takeWhile inside, cs.dropWhile inside, List.takeWhile_append_dropWhile.symm,
    ?_, ?_⟩
  · induction cs with
    | nil => simp
    | cons c cs inductionHypothesis =>
      rw [List.takeWhile_cons]
      split
      · rename_i holds
        exact List.forall_mem_cons.mpr ⟨holds, inductionHypothesis⟩
      · simp
  · intro c next
    have absent := List.head?_dropWhile_not inside cs
    rw [Option.mem_def.mp next] at absent
    simpa using absent

/-- In front of a character that does not spoil it, a number is closed as it is. -/
theorem closeNumber_stops (digits more : List Character)
    (stops : ∀ c ∈ more.head?, spoilsNumber c.code = false) :
    closeNumber digits more = ⟨.ok .number, digits, more⟩ := by
  unfold closeNumber
  cases more with
  | nil => rfl
  | cons c more => simp [stops c rfl]

/-- A number that was closed was not spoiled. -/
theorem closeNumber_ok {digits more taken left : List Character} {kind : Kind}
    (closed : closeNumber digits more = ⟨.ok kind, taken, left⟩) :
    kind = .number ∧ taken = digits ∧ left = more ∧ ∀ c ∈ more.head?,
      spoilsNumber c.code = false := by
  unfold closeNumber at closed
  split at closed
  · split at closed
    · cases closed
    · rename_i unspoiled
      cases closed
      exact ⟨rfl, rfl, rfl, by rintro d ⟨rfl⟩; simpa using unspoiled⟩
  · cases closed
    exact ⟨rfl, rfl, rfl, by simp⟩

/-- A number without a fraction is read in front of anything it does not run on into. -/
theorem numberLexeme_whole (first : Character) (digits more : List Character)
    (allDigits : ∀ c ∈ digits, isAsciiDigit c.code = true)
    (stops : ∀ c ∈ more.head?, Kind.number.runsOn c.code = false) :
    numberLexeme first (digits ++ more) = ⟨.ok .number, first :: digits, more⟩ := by
  simp only [Kind.runsOn, Bool.or_eq_false_iff] at stops
  have run := run_append (fun c => isAsciiDigit c.code) digits more allDigits
    fun c member => (stops c member).1
  have closes := closeNumber_stops (first :: digits) more fun c member => (stops c member).2
  unfold numberLexeme
  dsimp only
  rw [run.1, run.2]
  cases more with
  | nil => exact closes
  | cons c more =>
    have notPoint : c.code ≠ 46 := by
      intro point
      have notSpoiled := (stops c rfl).2
      simp [spoilsNumber, point] at notSpoiled
    simpa [notPoint] using closes

/-- A number with a fraction is read in front of anything it does not run on into. -/
theorem numberLexeme_fraction (first point : Character) (digits fraction more : List Character)
    (isPoint : point.code = 46) (allDigits : ∀ c ∈ digits, isAsciiDigit c.code = true)
    (fractionDigits : ∀ c ∈ fraction, isAsciiDigit c.code = true)
    (someFraction : fraction ≠ [])
    (stops : ∀ c ∈ more.head?, Kind.number.runsOn c.code = false) :
    numberLexeme first (digits ++ point :: (fraction ++ more)) =
      ⟨.ok .number, first :: digits ++ point :: fraction, more⟩ := by
  simp only [Kind.runsOn, Bool.or_eq_false_iff] at stops
  have pointEnds : ∀ c ∈ (point :: (fraction ++ more)).head?, isAsciiDigit c.code = false := by
    rintro c ⟨rfl⟩
    simp [isPoint, isAsciiDigit]
  have whole := run_append (fun c => isAsciiDigit c.code) digits _ allDigits pointEnds
  have run := run_append (fun c => isAsciiDigit c.code) fraction more fractionDigits
    fun c member =>
    (stops c member).1
  have closes := closeNumber_stops (first :: digits ++ point :: fraction) more fun c member =>
    (stops c member).2
  unfold numberLexeme
  dsimp only
  rw [whole.1, whole.2]
  simp only [isPoint, if_true, run.1, run.2]
  simpa [someFraction] using closes

/-- A string is closed by its quote, whatever follows. -/
theorem stringLexeme_closed (quote close : Character) (content more : List Character)
    (closes : close.code = 34) (inside : ∀ c ∈ content, c.code ≠ 34 ∧ c.code ≠ 10) :
    stringLexeme quote (content ++ close :: more) =
      ⟨.ok .string, quote :: content ++ [close], more⟩ := by
  have run := run_append (fun c => c.code != 34 && c.code != 10) content (close :: more)
    (fun c member => by simpa using inside c member) (by rintro c ⟨rfl⟩; simp [closes])
  unfold stringLexeme
  dsimp only
  rw [run.1, run.2]
  simp [closes]

/-- A word is read in front of anything that does not continue it. -/
theorem wordLexeme_run (first : Character) (run more : List Character)
    (within : ∀ c ∈ run, continuesName c.code = true)
    (stops : ∀ c ∈ more.head?, continuesName c.code = false) :
    wordLexeme first (run ++ more) =
      ⟨.ok ((Kind.ofWord? (Text.ofCharacters (first :: run))).getD .name), first :: run,
      more⟩ := by
  have whole := run_append (fun c => continuesName c.code) run more within stops
  unfold wordLexeme
  dsimp only
  rw [whole.1, whole.2]

/-- The kind of a word is a keyword or that of names. -/
theorem word_kind (word : Text) :
    (Kind.ofWord? word).getD .name = .name ∨
    ((Kind.ofWord? word).getD .name).isKeyword = true := by
  cases found : Kind.ofWord? word with
  | none => exact .inl rfl
  | some kind =>
    right
    have member : kind ∈ Kind.keywords := List.mem_of_find?_eq_some found
    simpa [Kind.isKeyword] using member

/-- A name or a keyword runs on into exactly what continues a name. -/
theorem runsOn_word {kind : Kind} (word : kind = .name ∨ kind.isKeyword = true) (code : Nat) :
    kind.runsOn code = continuesName code := by
  rcases word with rfl | keyword
  · rfl
  · cases kind <;> simp_all [Kind.runsOn, Kind.isKeyword, Kind.keywords]

/-- What is looked up in a table is listed there. -/
theorem mem_of_lookup {α β : Type} [BEq α] [LawfulBEq α] {key : α} {value : β}
    {table : List (α × β)}
    (found : table.lookup key = some value) : (key, value) ∈ table := by
  obtain ⟨before, after, rfl, -⟩ := List.lookup_eq_some_iff.mp found
  simp

/-- Only the listed characters are symbols. -/
theorem symbol?_none {code : Nat}
    (other : code ∉ [123, 125, 40, 41, 44, 58, 59, 62, 43, 45, 42, 47, 0x2192]) :
    symbol? code = none := by
  refine Option.eq_none_iff_forall_ne_some.mpr fun kind symbol => other ?_
  exact List.mem_map_of_mem (f := Prod.fst) (mem_of_lookup symbol)

/-- A symbol is no string, no name, and neither the end nor a failure. -/
theorem symbol?_kind {code : Nat} {kind : Kind} (symbol : symbol? code = some kind) :
    kind ≠ .string ∧ kind ≠ .name ∧ kind ≠ .endOfInput ∧ kind ≠ .failure := by
  have listed := mem_of_lookup symbol
  simp only [List.mem_cons, List.not_mem_nil, or_false, Prod.mk.injEq] at listed
  grind

/-- A symbol of two characters is no string, no name, and neither the end
nor a failure. -/
theorem doubleSymbol?_kind {code next : Nat} {kind : Kind}
    (double : doubleSymbol? code next = some kind) :
    kind ≠ .string ∧ kind ≠ .name ∧ kind ≠ .endOfInput ∧ kind ≠ .failure := by
  have listed := mem_of_lookup double
  simp only [List.mem_cons, List.not_mem_nil, or_false, Prod.mk.injEq] at listed
  grind

/-- The characters that start a symbol of two characters are symbols themselves, and these
run on into the second one. -/
theorem doubleSymbol?_some {code next : Nat} {kind : Kind}
    (double : doubleSymbol? code next = some kind) :
    ∃ single, symbol? code = some single ∧ single.runsOn next = true := by
  have listed := mem_of_lookup double
  simp only [List.mem_cons, List.not_mem_nil, or_false, Prod.mk.injEq] at listed
  rcases listed with ⟨⟨rfl, rfl⟩, -⟩ | ⟨⟨rfl, rfl⟩, -⟩ | ⟨⟨rfl, rfl⟩, -⟩
  · exact ⟨.plus, rfl, rfl⟩
  · exact ⟨.minus, rfl, rfl⟩
  · exact ⟨.minus, rfl, rfl⟩

/-- A symbol that does not run on into the next character is no half of a longer one. -/
theorem doubleSymbol?_none {code next : Nat}
    (stops : ∀ kind ∈ symbol? code, kind.runsOn next = false) :
    doubleSymbol? code next = none := by
  rw [Option.eq_none_iff_forall_ne_some]
  intro kind double
  obtain ⟨single, symbol, runs⟩ := doubleSymbol?_some double
  rw [stops single symbol] at runs
  cases runs

/-- No symbol of two characters runs on. -/
theorem double_stopped {code next following : Nat} {kind : Kind}
    (double : doubleSymbol? code next = some kind) : kind.runsOn following = false := by
  have listed := mem_of_lookup double
  simp only [List.mem_cons, List.not_mem_nil, or_false, Prod.mk.injEq] at listed
  rcases listed with ⟨-, rfl⟩ | ⟨-, rfl⟩ | ⟨-, rfl⟩ <;> rfl

/-- A symbol of one character that starts none of two with the next does not run on into
it, unless it is a slash. -/
theorem symbol_stopped {code next : Nat} {kind : Kind} (notSlash : code ≠ 47)
    (symbol : symbol? code = some kind) (single : doubleSymbol? code next = none) :
    kind.runsOn next = false := by
  have listed := mem_of_lookup symbol
  simp only [List.mem_cons, List.not_mem_nil, or_false, Prod.mk.injEq] at listed
  have paired (second : Nat) (joined : doubleSymbol? code second ≠ none) : next ≠ second := by
    rintro rfl
    exact joined single
  rcases listed with ⟨-, rfl⟩ | ⟨-, rfl⟩ | ⟨-, rfl⟩ | ⟨-, rfl⟩ | ⟨-, rfl⟩ | ⟨-, rfl⟩ |
      ⟨-, rfl⟩ | ⟨-, rfl⟩ |
    ⟨rfl, rfl⟩ | ⟨rfl, rfl⟩ | ⟨-, rfl⟩ | ⟨slash, -⟩ | ⟨-, rfl⟩
  any_goals rfl
  · simp [Kind.runsOn, paired 61 (by decide)]
  · simp [Kind.runsOn, paired 61 (by decide), paired 62 (by decide)]
  · exact absurd slash notSlash

/-- What is no symbol and no less-than sign is decided by its class. -/
theorem lexeme_other {first : Character} (rest : List Character) (notLess : first.code ≠ 60)
    (noSymbol : symbol? first.code = none) :
    lexeme first rest =
      if first.code = 34 then stringLexeme first rest
      else if isAsciiDigit first.code then numberLexeme first rest
      else if isLetter first.code then wordLexeme first rest
      else ⟨.error (.unexpected first.code), [first], rest⟩ := by
  cases rest <;> simp [lexeme, notLess, doubleSymbol?_none, noSymbol, simpleLexeme]

/-- A quote starts a string. -/
theorem lexeme_quote {first : Character} (rest : List Character) (quote : first.code = 34) :
    lexeme first rest = stringLexeme first rest := by
  rw [lexeme_other rest (by omega) (by rw [quote]; rfl), if_pos quote]

/-- A digit starts a number. -/
theorem lexeme_digit {first : Character} (rest : List Character)
    (digit : isAsciiDigit first.code = true) :
    lexeme first rest = numberLexeme first rest := by
  have range := digit
  simp only [isAsciiDigit, Bool.and_eq_true, decide_eq_true_eq] at range
  have noSymbol : symbol? first.code = none := by
    refine symbol?_none ?_
    simp only [List.mem_cons, List.not_mem_nil, or_false]
    omega
  rw [lexeme_other rest (by omega) noSymbol, if_neg (by omega), if_pos digit]

/-- A letter starts a word. -/
theorem lexeme_letter {first : Character} (rest : List Character)
    (letter : isLetter first.code = true) :
    lexeme first rest = wordLexeme first rest := by
  have apart {code : Nat} (other : isLetter code = false) : first.code ≠ code := by
    rintro rfl
    rw [other] at letter
    cases letter
  have noSymbol : symbol? first.code = none := by
    refine symbol?_none fun listed => ?_
    have others : ∀ code ∈ [123, 125, 40, 41, 44, 58, 59, 62, 43, 45, 42, 47, 0x2192],
        isLetter code = false := by decide +kernel
    exact apart (others first.code listed) rfl
  have notDigit : isAsciiDigit first.code = false := by
    refine Bool.eq_false_iff.mpr fun digit => ?_
    simp [isAsciiDigit] at digit
    have small : first.code < 0x80 := by omega
    simp [isLetter, small] at letter
    omega
  rw [lexeme_other rest (apart rfl) noSymbol, if_neg (apart rfl), notDigit,
    if_neg (by simp), if_pos letter]

/-- A slash is a token of its own. -/
theorem lexeme_slash {first : Character} (rest : List Character) (slash : first.code = 47) :
    lexeme first rest = ⟨.ok .divide, [first], rest⟩ := by
  obtain ⟨code, bytes⟩ := first
  subst slash
  cases rest <;> rfl

/-- The ways in which a token is read from its first character on: what kind it is, which
characters it takes and which it leaves. -/
inductive Lexed (first : Character) : List Character → Kind → List Character →
    List Character → Prop where
  | biArrow (a b : Character) (left : List Character) (less : first.code = 60)
      (dash : a.code = 45)
      (point : b.code = 62) : Lexed first (a :: b :: left) .biArrow [first, a, b] left
  | double (next : Character) (left : List Character) (kind : Kind) (notLess : first.code ≠ 60)
      (symbol : doubleSymbol? first.code next.code = some kind) :
      Lexed first (next :: left) kind [first, next] left
  | single (left : List Character) (kind : Kind) (notLess : first.code ≠ 60)
      (symbol : symbol? first.code = some kind)
      (apart : ∀ c ∈ left.head?, doubleSymbol? first.code c.code = none) :
      Lexed first left kind [first] left
  | string (content : List Character) (close : Character) (left : List Character)
      (quote : first.code = 34) (closes : close.code = 34)
      (inside : ∀ c ∈ content, c.code ≠ 34 ∧ c.code ≠ 10) :
      Lexed first (content ++ close :: left) .string (first :: content ++ [close]) left
  | whole (digits left : List Character) (digit : isAsciiDigit first.code = true)
      (allDigits : ∀ c ∈ digits, isAsciiDigit c.code = true)
      (stops : ∀ c ∈ left.head?, Kind.number.runsOn c.code = false) :
      Lexed first (digits ++ left) .number (first :: digits) left
  | fraction (digits : List Character) (point : Character) (fraction left : List Character)
      (digit : isAsciiDigit first.code = true) (isPoint : point.code = 46)
      (allDigits : ∀ c ∈ digits, isAsciiDigit c.code = true)
      (fractionDigits : ∀ c ∈ fraction, isAsciiDigit c.code = true)
        (someFraction : fraction ≠ [])
      (stops : ∀ c ∈ left.head?, Kind.number.runsOn c.code = false) :
      Lexed first (digits ++ point :: (fraction ++ left)) .number
        (first :: digits ++ point :: fraction) left
  | word (run left : List Character) (letter : isLetter first.code = true)
      (within : ∀ c ∈ run, continuesName c.code = true)
      (stops : ∀ c ∈ left.head?, continuesName c.code = false) :
      Lexed first (run ++ left) ((Kind.ofWord? (Text.ofCharacters (first :: run))).getD .name)
        (first :: run) left

/-- A string that is read was closed on its line. -/
theorem stringLexeme_cases {first : Character} {rest taken left : List Character} {kind : Kind}
    (quote : first.code = 34) (read : stringLexeme first rest = ⟨.ok kind, taken, left⟩) :
    Lexed first rest kind taken left := by
  obtain ⟨content, more, rfl, inside, ends⟩ :=
    run_split (fun c => c.code != 34 && c.code != 10) rest
  have run := run_append _ content more inside ends
  unfold stringLexeme at read
  dsimp only at read
  rw [run.1, run.2] at read
  cases more with
  | nil => cases read
  | cons close more =>
    dsimp only at read
    split at read
    · rename_i closes
      cases read
      exact .string content close _ quote closes fun c member => by simpa using inside c member
    · cases read

/-- A number that is read ends where it does not run on. -/
theorem numberLexeme_cases {first : Character} {rest taken left : List Character} {kind : Kind}
    (digit : isAsciiDigit first.code = true)
    (read : numberLexeme first rest = ⟨.ok kind, taken, left⟩) :
    Lexed first rest kind taken left := by
  obtain ⟨digits, more, rfl, allDigits, ends⟩ := run_split (fun c => isAsciiDigit c.code) rest
  have run := run_append _ digits more allDigits ends
  have stops {more : List Character} (ends : ∀ c ∈ more.head?, isAsciiDigit c.code = false)
      (unspoiled : ∀ c ∈ more.head?, spoilsNumber c.code = false) :
      ∀ c ∈ more.head?, Kind.number.runsOn c.code = false := fun c next => by
    simp [Kind.runsOn, ends c next, unspoiled c next]
  unfold numberLexeme at read
  dsimp only at read
  rw [run.1, run.2] at read
  cases more with
  | nil =>
    obtain ⟨rfl, rfl, rfl, unspoiled⟩ := closeNumber_ok read
    exact .whole digits _ digit allDigits (stops ends unspoiled)
  | cons point more =>
    dsimp only at read
    split at read
    · rename_i isPoint
      obtain ⟨fraction, more, rfl, fractionDigits, fractionEnds⟩ :=
        run_split (fun c => isAsciiDigit c.code) more
      have fractionRun := run_append _ fraction more fractionDigits fractionEnds
      rw [fractionRun.1, fractionRun.2] at read
      split at read
      · cases read
      · rename_i someFraction
        obtain ⟨rfl, rfl, rfl, unspoiled⟩ := closeNumber_ok read
        exact .fraction digits point fraction _ digit isPoint allDigits fractionDigits
          (by simpa using someFraction) (stops fractionEnds unspoiled)
    · obtain ⟨rfl, rfl, rfl, unspoiled⟩ := closeNumber_ok read
      exact .whole digits _ digit allDigits (stops ends unspoiled)

/-- Every token that is read is read in one of these ways. -/
theorem lexeme_cases {first : Character} {rest taken left : List Character} {kind : Kind}
    (read : lexeme first rest = ⟨.ok kind, taken, left⟩) :
    Lexed first rest kind taken left := by
  by_cases less : first.code = 60
  · unfold lexeme at read
    rw [if_pos less] at read
    unfold lessLexeme at read
    repeat' split at read
    all_goals try cases read
    rename_i arrow
    simp only [Bool.and_eq_true, decide_eq_true_eq] at arrow
    exact .biArrow _ _ _ less arrow.1 arrow.2
  cases symbol : symbol? first.code with
  | some single =>
    unfold lexeme at read
    rw [if_neg less] at read
    have simple : simpleLexeme first rest = ⟨.ok single, [first], rest⟩ := by
      simp [simpleLexeme, symbol]
    cases rest with
    | nil =>
      dsimp only at read
      rw [simple] at read
      cases read
      exact .single _ _ less symbol (by simp)
    | cons next others =>
      dsimp only at read
      split at read
      · rename_i double
        cases read
        exact .double next _ _ less double
      · rename_i apart
        rw [simple] at read
        cases read
        exact .single _ _ less symbol (by rintro c ⟨rfl⟩; exact apart)
  | none =>
    rw [lexeme_other rest less symbol] at read
    split at read
    · rename_i quote
      exact stringLexeme_cases quote read
    split at read
    · rename_i digit
      exact numberLexeme_cases digit read
    split at read
    · rename_i letter
      obtain ⟨run, more, rfl, within, ends⟩ := run_split (fun c => continuesName c.code) rest
      rw [wordLexeme_run first run more within ends] at read
      cases read
      exact .word run _ letter within ends
    · cases read

/-- A token takes the first character and a part of the others, and leaves the rest. -/
theorem Lexed.covers {first : Character} {rest taken left : List Character} {kind : Kind}
    (lexed : Lexed first rest kind taken left) : ∃ tail, taken = first :: tail ∧
    rest = tail ++ left := by
  cases lexed
  case string content close _ _ _ => exact ⟨content ++ [close], by simp, by simp⟩
  all_goals exact ⟨_, rfl, by simp⟩

/-- A token is read again in front of anything it does not run on into: nothing but its
own characters decides what it is. -/
theorem Lexed.again {first : Character} {rest tail left : List Character} {kind : Kind}
    (lexed : Lexed first rest kind (first :: tail) left) (more : List Character)
    (stops : ∀ c ∈ more.head?, kind.runsOn c.code = false) :
    lexeme first (tail ++ more) = ⟨.ok kind, first :: tail, more⟩ := by
  cases lexed with
  | biArrow a b left less dash point => simp [lexeme, lessLexeme, less, dash, point]
  | double next left kind notLess symbol => simp [lexeme, notLess, symbol]
  | single left kind notLess symbol apart =>
    cases more with
    | nil => simp [lexeme, notLess, simpleLexeme, symbol]
    | cons c more =>
      have half : doubleSymbol? first.code c.code = none := by
        refine doubleSymbol?_none fun kind single => ?_
        rw [symbol] at single
        cases single
        exact stops c rfl
      simp [lexeme, notLess, half, simpleLexeme, symbol]
  | string content close left quote closes inside =>
    have closed := stringLexeme_closed first close content more closes inside
    simpa [lexeme_quote _ quote] using closed
  | whole digits left digit allDigits _ =>
    rw [lexeme_digit _ digit]
    exact numberLexeme_whole first tail more allDigits stops
  | fraction digits point fraction left digit isPoint allDigits fractionDigits someFraction _ =>
    have read := numberLexeme_fraction first point digits fraction more isPoint allDigits
      fractionDigits
      someFraction stops
    simpa [lexeme_digit _ digit] using read
  | word run left letter within _ =>
    have wordStops : ∀ c ∈ more.head?, continuesName c.code = false := fun c member => by
      rw [← runsOn_word (word_kind _)]
      exact stops c member
    rw [lexeme_letter _ letter]
    exact wordLexeme_run first tail more within wordStops

/-- A token read from characters is neither the end nor a failure. -/
theorem Lexed.kind {first : Character} {rest taken left : List Character} {kind : Kind}
    (lexed : Lexed first rest kind taken left) : kind ≠ .endOfInput ∧ kind ≠ .failure := by
  cases lexed with
  | double next left kind notLess symbol => exact (doubleSymbol?_kind symbol).2.2
  | single left kind notLess symbol apart => exact (symbol?_kind symbol).2.2
  | word run left letter within stops =>
    rcases word_kind (Text.ofCharacters (first :: run)) with isName | keyword
    · simp [isName]
    · generalize (Kind.ofWord? _).getD .name = kind at keyword
      cases kind <;> simp_all [Kind.isKeyword, Kind.keywords]
  | _ => simp

/-- Tokens are as long as they can be: only a slash may stand before a character that
would have changed it, and then it opens a comment. -/
theorem Lexed.stopped {first : Character} {rest taken left : List Character} {kind : Kind}
    (lexed : Lexed first rest kind taken left) (notSlash : first.code ≠ 47) :
    ∀ c ∈ left.head?, kind.runsOn c.code = false := by
  cases lexed with
  | biArrow a b left less dash point => exact fun c _ => rfl
  | double next left kind notLess symbol => exact fun c _ => double_stopped symbol
  | single left kind notLess symbol apart =>
    exact fun c next => symbol_stopped notSlash symbol (apart c next)
  | string content close left quote closes inside => exact fun c _ => rfl
  | whole digits left digit allDigits stops => exact stops
  | fraction digits point fraction left digit isPoint allDigits fractionDigits someFraction
      stops =>
    exact stops
  | word run left letter within stops =>
    intro c next
    rw [runsOn_word (word_kind _)]
    exact stops c next

/-- The text of the characters spells these tokens, with only blanks between them. -/
inductive Spelled : List Character → List Spelling → Prop where
  | done : Spelled [] []
  | blank {c : Character} {cs : List Character} {spellings : List Spelling}
      (separates : isSeparator c.code = true) (others : Spelled cs spellings) :
      Spelled (c :: cs) spellings
  | token {first : Character} {rest taken left : List Character} {kind : Kind}
      {spellings : List Spelling} (visible : isSeparator first.code = false)
      (read : lexeme first rest = ⟨.ok kind, taken, left⟩)
      (stops : ∀ c ∈ left.head?, kind.runsOn c.code = false)
        (others : Spelled left spellings) :
      Spelled (first :: rest) ((kind, valueOf kind taken) :: spellings)

/-- Nothing is skipped before a visible character that opens no comment. -/
theorem skipGap_visible {first : Character} {rest : List Character} (offset : Nat)
    (visible : isSeparator first.code = false)
    (noComment : first.code = 47 → ∀ d ∈ rest.head?, d.code ≠ 47 ∧ d.code ≠ 42) :
    skipGap .open offset (first :: rest) = .ok (offset, first :: rest) := by
  cases rest with
  | nil => simp [skipGap, visible]
  | cons d rest =>
    have neither : first.code = 47 → d.code ≠ 47 ∧ d.code ≠ 42 :=
      fun slash => noComment slash d rfl
    simp only [skipGap, visible]
    by_cases slash : first.code = 47
    · simp [slash, neither slash]
    · simp [slash]

/-- A spelled token is what the scanner answers with, wherever the blanks
before it are. -/
theorem skipGap_token {first : Character} {rest taken left : List Character} {kind : Kind}
    (offset : Nat) (visible : isSeparator first.code = false)
    (read : lexeme first rest = ⟨.ok kind, taken, left⟩)
    (stops : ∀ c ∈ left.head?, kind.runsOn c.code = false) :
    skipGap .open offset (first :: rest) = .ok (offset, first :: rest) := by
  refine skipGap_visible offset visible fun slash d next => ?_
  rw [lexeme_slash rest slash] at read
  obtain ⟨kinds, rfl, rfl⟩ := Lexeme.mk.inj read
  cases kinds
  have stopped := stops d next
  simpa [Kind.runsOn] using stopped

/-- Scanning a text that spells a list of tokens gives these tokens and then the end. -/
theorem Spelled.collect {cs : List Character} {spellings : List Spelling}
    (spelled : Spelled cs spellings) (fuel offset : Nat) (enough : cs.length < fuel) :
    ∃ stream, Scanner.collect fuel ⟨offset, cs, none⟩ = .ok stream ∧
      stream.tokens.map Token.spelling = spellings ∧ stream.last.kind = .endOfInput := by
  induction spelled generalizing fuel offset with
  | done =>
    obtain ⟨fuel, rfl⟩ := Nat.exists_eq_add_one_of_ne_zero (Nat.ne_of_gt enough)
    exact ⟨_, rfl, rfl, rfl⟩
  | @blank c cs spellings separates others inductionHypothesis =>
    obtain ⟨fuel, rfl⟩ :=
      Nat.exists_eq_add_one_of_ne_zero (Nat.ne_of_gt (Nat.zero_lt_of_lt enough))
    obtain ⟨stream, collected, sameTokens, ends⟩ :=
      inductionHypothesis (fuel + 1) (offset + c.width) (by simp at enough; omega)
    refine ⟨stream, ?_, sameTokens, ends⟩
    have skipped : skipGap .open offset (c :: cs) = skipGap .open (offset + c.width) cs := by
      cases cs <;> simp [skipGap, separates]
    have sameNext : Scanner.next ⟨offset, c :: cs, none⟩ =
        Scanner.next ⟨offset + c.width, cs, none⟩ := by
      simp only [Scanner.next, skipped]
    simp only [Scanner.collect] at collected ⊢
    rw [sameNext]
    exact collected
  | @token first rest taken left kind spellings visible read stops others inductionHypothesis =>
    obtain ⟨fuel, rfl⟩ :=
      Nat.exists_eq_add_one_of_ne_zero (Nat.ne_of_gt (Nat.zero_lt_of_lt enough))
    obtain ⟨tail, rfl, rfl⟩ := (lexeme_cases read).covers
    have shorter : left.length < fuel := by
      simp at enough
      omega
    obtain ⟨stream, collected, sameTokens, ends⟩ := inductionHypothesis fuel
      (offset + (Text.ofCharacters (first :: tail)).length) shorter
    refine ⟨⟨⟨kind, valueOf kind (first :: tail), offset,
      offset + (Text.ofCharacters (first :: tail)).length⟩ :: stream.tokens, stream.last⟩, ?_,
      by simp [Token.spelling, sameTokens], ends⟩
    simp only [Scanner.collect, Scanner.next, skipGap_token offset visible read stops, read,
      (lexeme_cases read).kind.1, if_false, collected]
    rfl

/-- Two texts may be joined where the last token of the first does not run on into
the second. -/
theorem Spelled.append {cs ds : List Character} {before after : List Spelling}
    (spelled : Spelled cs before) (following : Spelled ds after)
    (apart : ∀ s ∈ before.getLast?, ∀ d ∈ ds.head?, s.1.runsOn d.code = false) :
    Spelled (cs ++ ds) (before ++ after) := by
  induction spelled with
  | done => exact following
  | blank separates others inductionHypothesis =>
    exact .blank separates (inductionHypothesis apart)
  | @token first rest taken left kind spellings visible read stops others inductionHypothesis =>
    have lexed := lexeme_cases read
    obtain ⟨tail, rfl, rfl⟩ := lexed.covers
    have stopsJoined : ∀ c ∈ (left ++ ds).head?, kind.runsOn c.code = false := by
      cases left with
      | cons c left => exact stops
      | nil =>
        cases others
        simpa using apart
    rw [List.cons_append, List.append_assoc, List.cons_append]
    refine .token visible (lexed.again (left ++ ds) stopsJoined) stopsJoined
      (inductionHypothesis ?_)
    intro s last
    refine apart s ?_
    rw [List.getLast?_cons, Option.mem_def.mp last]
    rfl

/-- No token runs on into a blank. -/
theorem runsOn_separator (kind : Kind) {code : Nat} (separates : isSeparator code = true) :
    kind.runsOn code = false := by
  have listed : code ∈ [9, 10, 11, 12, 13, 32] := by
    simp [isSeparator] at separates ⊢
    omega
  have stops : ∀ code ∈ [9, 10, 11, 12, 13, 32], kind.runsOn code = false := by
    cases kind <;> decide
  exact stops code listed

/-- A blank keeps any two texts apart. -/
theorem Spelled.append_blank {cs ds : List Character} {c : Character}
    {before after : List Spelling} (spelled : Spelled cs before)
    (separates : isSeparator c.code = true) (following : Spelled ds after) :
    Spelled (cs ++ c :: ds) (before ++ after) := by
  refine spelled.append (.blank separates following) ?_
  rintro s - d ⟨rfl⟩
  exact runsOn_separator s.1 separates

/-- Without slashes, only the blanks are skipped. -/
theorem skipGap_blanks (offset : Nat) (blanks more : List Character)
    (separate : ∀ c ∈ blanks, isSeparator c.code = true)
    (visible : ∀ c ∈ more.head?, isSeparator c.code = false)
    (noSlash : ∀ c ∈ more, c.code ≠ 47) :
    ∃ stop, skipGap .open offset (blanks ++ more) = .ok (stop, more) := by
  induction blanks generalizing offset with
  | nil =>
    cases more with
    | nil => exact ⟨offset, rfl⟩
    | cons c more =>
      exact ⟨offset, skipGap_visible offset (visible c rfl) fun slash =>
        absurd slash (noSlash c List.mem_cons_self)⟩
  | cons c blanks inductionHypothesis =>
    obtain ⟨blank, others⟩ := List.forall_mem_cons.mp separate
    obtain ⟨stop, skipped⟩ := inductionHypothesis (offset + c.width) others
    refine ⟨stop, ?_⟩
    rw [List.cons_append, ← skipped]
    cases blanks ++ more <;> simp [skipGap, blank]

/-- Blanks before the first token spell nothing. -/
theorem Spelled.of_blanks {blanks more : List Character} {spellings : List Spelling}
    (separate : ∀ c ∈ blanks, isSeparator c.code = true) (spelled : Spelled more spellings) :
    Spelled (blanks ++ more) spellings := by
  induction blanks with
  | nil => exact spelled
  | cons c blanks inductionHypothesis =>
    obtain ⟨blank, others⟩ := List.forall_mem_cons.mp separate
    exact .blank blank (inductionHypothesis others)

/-- What a scanner collects is the end after a gap, or a token after a gap and what it
collects behind the token. -/
theorem collect_cases {fuel offset : Nat} {cs : List Character} {stream : Scanner.Stream}
    (collected : Scanner.collect (fuel + 1) ⟨offset, cs, none⟩ = .ok stream) :
    (∃ stop, skipGap .open offset cs = .ok (stop, []) ∧
      stream = ⟨[], ⟨.endOfInput, [], stop, stop⟩⟩) ∨
    ∃ start first tail left kind after,
      skipGap .open offset cs = .ok (start, first :: (tail ++ left)) ∧
      lexeme first (tail ++ left) = ⟨.ok kind, first :: tail, left⟩ ∧
      Scanner.collect fuel ⟨start + (Text.ofCharacters (first :: tail)).length, left,
      none⟩ = .ok after ∧
      stream = ⟨⟨kind, valueOf kind (first :: tail), start,
        start + (Text.ofCharacters (first :: tail)).length⟩ :: after.tokens, after.last⟩ := by
  cases skipped : skipGap .open offset cs with
  | error ends => simp [Scanner.collect, Scanner.next, skipped] at collected
  | ok gap =>
    obtain ⟨start, more⟩ := gap
    cases more with
    | nil =>
      simp only [Scanner.collect, Scanner.next, skipped, if_true] at collected
      cases collected
      exact .inl ⟨start, rfl, rfl⟩
    | cons first rest =>
      cases read : lexeme first rest with
      | mk verdict taken left =>
        cases verdict with
        | error cause => simp [Scanner.collect, Scanner.next, skipped, read] at collected
        | ok kind =>
          have lexed := lexeme_cases read
          simp only [Scanner.collect, Scanner.next, skipped, read, lexed.kind.1,
            if_false] at collected
          obtain ⟨tail, rfl, rfl⟩ := lexed.covers
          cases others : Scanner.collect fuel
            ⟨start + (Text.ofCharacters (first :: tail)).length, left, none⟩ with
          | error e => simp [others, Except.map] at collected
          | ok after =>
            simp only [others, Except.map] at collected
            cases collected
            exact .inr ⟨start, first, tail, left, kind, after, rfl, read, others, rfl⟩

/-- Without slashes there are no comments, so what the scanner collects is what the
text spells. -/
theorem Spelled.of_collect {fuel offset : Nat} {cs : List Character} {stream : Scanner.Stream}
    (enough : cs.length < fuel) (noSlash : ∀ c ∈ cs, c.code ≠ 47)
    (collected : Scanner.collect fuel ⟨offset, cs, none⟩ = .ok stream) :
    Spelled cs (stream.tokens.map Token.spelling) := by
  induction fuel generalizing offset cs stream with
  | zero => omega
  | succ fuel inductionHypothesis =>
    obtain ⟨blanks, more, rfl, separate, visible⟩ := run_split (fun c => isSeparator c.code) cs
    obtain ⟨start, skipped⟩ := skipGap_blanks offset blanks more separate visible
      fun c member =>
      noSlash c (List.mem_append_right _ member)
    refine .of_blanks separate ?_
    rcases collect_cases collected with ⟨stop, ended, rfl⟩ |
      ⟨start, first, tail, left, kind, after, begins, read, others, rfl⟩
    · rw [skipped] at ended
      cases ended
      exact .done
    · rw [skipped] at begins
      cases begins
      have within : ∀ c ∈ first :: (tail ++ left), c.code ≠ 47 := fun c member =>
        noSlash c (List.mem_append_right _ member)
      have shorter : left.length < fuel := by
        simp at enough
        omega
      exact .token (visible first rfl) read
        ((lexeme_cases read).stopped (within first List.mem_cons_self))
        (inductionHypothesis shorter (fun c member => within c (by simp [member])) others)

end Token

end Persona
