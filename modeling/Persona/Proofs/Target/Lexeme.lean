import Persona.Proofs.Number.Numeral

/-!
# Cutting a query into lexemes

Two targets are query languages. What a database makes of an output is decided by
its lexer, so that is where a name could break out of its literal. A query is cut
here byte by byte, by an automaton that knows about a language only its symbols, its
quotes and its comments: between quotes everything is content until the quote that
ends it, and outside them bytes are collected to words.

The automaton refuses more than a database would. A comment, a quote directly behind
a word and an escape other than those of the backslash and the quote have no lexemes,
and neither has a text that ends between quotes. What it does accept is accepted
without any doubt about where a literal ends.

Texts are put together from constants, words and literals. The lexemes of the whole
are those of the parts, where a part ends in a byte that separates or the next one
starts with such a byte.
-/

namespace Persona

/-- The smallest parts of a query: a word, a symbol, or what stands between quotes. -/
inductive Lexeme where
  | word (text : Text)
  | symbol (byte : UInt8)
  | quoted (mark : UInt8) (content : Text)
deriving DecidableEq, Repr

/-- What has to be known of a query language to cut its texts: the symbols, the quotes
that stand for themselves when they are doubled, the quotes that stand for themselves
behind a backslash, and the pairs of bytes that start a comment. -/
structure Dialect where
  symbols : List UInt8
  doubled : List UInt8
  escaped : List UInt8
  comments : List (UInt8 × UInt8)
  quotes_apart : ∀ b ∈ doubled, (symbols ++ [9, 10, 13, 32]).contains b = false

namespace Dialect

variable {d : Dialect}

/-- Where in a text the automaton stands. -/
inductive Mode where
  /-- Not between quotes, behind these bytes of a word. -/
  | outside (word : Text)
  /-- Between quotes, behind this content. -/
  | inside (mark : UInt8) (content : Text)
  /-- Behind a quote that ends the content unless it is doubled. -/
  | closing (mark : UInt8) (content : Text)
  /-- Behind a backslash between quotes. -/
  | escaping (mark : UInt8) (content : Text)
deriving DecidableEq

/-- The lexemes that are under way, if the text may end here. -/
def Mode.pending : Mode → Option (List Lexeme)
  | .outside [] => some []
  | .outside word => some [.word word]
  | .closing mark content => some [.quoted mark content]
  | .inside _ _ | .escaping _ _ => none

/-- The byte ends a word: a symbol, or a blank. -/
def separates (d : Dialect) (b : UInt8) : Bool := (d.symbols ++ [9, 10, 13, 32]).contains b

/-- The byte starts a quotation. -/
def isMark (d : Dialect) (b : UInt8) : Bool := (d.doubled ++ d.escaped).contains b

/-- The byte starts a comment behind the last byte of a word. -/
def startsComment (d : Dialect) (word : Text) (b : UInt8) : Bool :=
  word.getLast?.any fun a => d.comments.contains (a, b)

/-- Read one byte outside quotes. -/
def stepOutside (d : Dialect) (word : Text) (b : UInt8) : Option (List Lexeme × Mode) :=
  if d.separates b then
    let read := if word.isEmpty then [] else [Lexeme.word word]
    some (if d.symbols.contains b then read ++ [.symbol b] else read, .outside [])
  else if d.isMark b then
    if word.isEmpty then some ([], .inside b []) else none
  else if d.startsComment word b then none
  else some ([], .outside (word ++ [b]))

/-- Read one byte. -/
def step (d : Dialect) : Mode → UInt8 → Option (List Lexeme × Mode)
  | .outside word, b => d.stepOutside word b
  | .inside mark content, b =>
    if b = mark then some ([], .closing mark content)
    else if b = 92 ∧ mark ∈ d.escaped then some ([], .escaping mark content)
    else some ([], .inside mark (content ++ [b]))
  | .closing mark content, b =>
    if b = mark ∧ mark ∈ d.doubled then some ([], .inside mark (content ++ [b]))
    else (d.stepOutside [] b).map fun (read, next) => (.quoted mark content :: read, next)
  | .escaping mark content, b =>
    if b = 92 ∨ b = mark then some ([], .inside mark (content ++ [b])) else none

/-- Read a text from a mode: the lexemes that were completed, and the mode behind them. -/
def run (d : Dialect) : Mode → Text → Option (List Lexeme × Mode)
  | mode, [] => some ([], mode)
  | mode, b :: rest => do
    let (read, next) ← d.step mode b
    let (more, last) ← d.run next rest
    return (read ++ more, last)

/-- The lexemes of a whole text. -/
def lexemes (d : Dialect) (text : Text) : Option (List Lexeme) := do
  let (read, last) ← d.run (.outside []) text
  let rest ← last.pending
  return read ++ rest

/-- A text is read in two parts. -/
theorem run_append (mode : Mode) (first second : Text) :
    d.run mode (first ++ second) =
      (d.run mode first).bind fun (read, next) =>
      (d.run next second).map fun (more, last) => (read ++ more, last) := by
  induction first generalizing mode with
  | nil => simp [run]
  | cons b rest inductionHypothesis =>
    simp only [List.cons_append, run, Option.bind_eq_bind]
    cases d.step mode b with
    | none => rfl
    | some stepped =>
      obtain ⟨read, next⟩ := stepped
      simp only [Option.bind_some, inductionHypothesis]
      cases d.run next rest with
      | none => rfl
      | some reached =>
        obtain ⟨more, last⟩ := reached
        cases later : d.run last second <;> simp [later]

/-- Two parts that are read one after the other. -/
theorem run_trans {mode next last : Mode} {first second : Text} {read more : List Lexeme}
    (start : d.run mode first = some (read, next))
    (continued : d.run next second = some (more, last)) :
    d.run mode (first ++ second) = some (read ++ more, last) := by
  simp only [run_append, start, Option.bind_some, continued, Option.map_some]

/-- One byte and then the others. -/
theorem run_cons {mode next : Mode} {b : UInt8} {read : List Lexeme}
    (stepped : d.step mode b = some (read, next))
    (rest : Text) : d.run mode (b :: rest) = (d.run next rest).map fun (more, last) =>
    (read ++ more, last) := by
  simp only [run, stepped, Option.bind_eq_bind, Option.bind_some]
  cases d.run next rest <;> rfl

/-- The text has these lexemes, and nothing that follows can change them. -/
def Closed (d : Dialect) (text : Text) (found : List Lexeme) : Prop :=
  d.run (.outside []) text = some (found, .outside [])

instance (text : Text) (found : List Lexeme) : Decidable (d.Closed text found) :=
  inferInstanceAs (Decidable (_ = _))

/-- The text has these lexemes if nothing follows that continues the last one. -/
def Open (d : Dialect) (text : Text) (found : List Lexeme) : Prop :=
  ∃ read mode rest, d.run (.outside []) text = some (read, mode) ∧
    mode.pending = some rest ∧ found = read ++ rest

/-- The lexemes of an open text. -/
theorem Open.lexemes_eq {text : Text} {found : List Lexeme} (isOpen : d.Open text found) :
    d.lexemes text = some found := by
  obtain ⟨read, mode, rest, reached, pending, rfl⟩ := isOpen
  simp [lexemes, reached, pending]

/-- The text starts with a byte that ends a word. -/
def Separating (d : Dialect) (text : Text) : Prop := ∃ b rest, text = b :: rest ∧
    d.separates b = true

/-- The empty text has no lexemes. -/
theorem Closed.nil : d.Closed [] [] := rfl

/-- A closed text is open. -/
theorem Closed.toOpen {text : Text} {found : List Lexeme} (closed : d.Closed text found) :
    d.Open text found :=
  ⟨found, .outside [], [], closed, rfl, (List.append_nil found).symm⟩

/-- Behind a closed text reading starts anew. -/
theorem Closed.append {first second : Text} {found more : List Lexeme}
    (start : d.Closed first found)
    (continued : d.Closed second more) : d.Closed (first ++ second) (found ++ more) :=
  run_trans start continued

/-- An open text behind a closed one. -/
theorem Closed.appendOpen {first second : Text} {found more : List Lexeme}
    (start : d.Closed first found)
    (continued : d.Open second more) : d.Open (first ++ second) (found ++ more) := by
  obtain ⟨read, mode, rest, reached, pending, rfl⟩ := continued
  exact ⟨found ++ read, mode, rest, run_trans start reached, pending,
    (List.append_assoc found read rest).symm⟩

/-- A byte that ends words completes whatever is pending. -/
theorem step_separates {mode : Mode} {rest : List Lexeme} {b : UInt8}
    (separates : d.separates b = true) (pending : mode.pending = some rest) :
    ∃ read, d.step (.outside []) b = some (read, .outside []) ∧
      d.step mode b = some (rest ++ read, .outside []) := by
  refine ⟨if d.symbols.contains b then [.symbol b]
    else [], by simp [step, stepOutside, separates], ?_⟩
  cases mode with
  | outside word =>
    cases word with
    | nil =>
      obtain rfl := Option.some.inj pending
      simp [step, stepOutside, separates]
    | cons c others =>
      obtain rfl := Option.some.inj pending
      by_cases symbol : b ∈ d.symbols <;> simp [step, stepOutside, separates, symbol]
  | closing mark content =>
    obtain rfl := Option.some.inj pending
    have noQuote : ¬ (b = mark ∧ mark ∈ d.doubled) := by
      rintro ⟨rfl, doubled⟩
      rw [Dialect.separates, d.quotes_apart b doubled] at separates
      cases separates
    simp [step, noQuote, stepOutside, separates]
  | inside mark content => cases pending
  | escaping mark content => cases pending

/-- A closed text behind an open one completes it, if it starts with a byte that
ends words. -/
theorem Open.append {first second : Text} {found more : List Lexeme}
    (start : d.Open first found)
    (separating : d.Separating second) (continued : d.Closed second more) :
    d.Closed (first ++ second) (found ++ more) := by
  obtain ⟨b, rest, rfl, separates⟩ := separating
  obtain ⟨read, mode, pending, reached, ended, rfl⟩ := start
  obtain ⟨new, fresh, stepped⟩ := step_separates separates ended
  have behind : d.run mode (b :: rest) = some (pending ++ more, .outside []) := by
    rw [Closed, run_cons fresh] at continued
    rw [run_cons stepped]
    obtain ⟨⟨others, final⟩, later, together⟩ := Option.map_eq_some_iff.mp continued
    obtain ⟨rfl, rfl⟩ := Prod.mk.inj together
    simp [later]
  rw [List.append_assoc]
  exact run_trans reached behind

/-- Open texts with a separator between neighbours. -/
theorem Open.join {texts : List Text} {founds : List (List Lexeme)} (separator : Text)
    (between : List Lexeme) (closed : d.Closed separator between)
    (separating : d.Separating separator) (each : List.Forall₂ d.Open texts founds) :
    d.Open (Text.join separator texts) (between.intercalate founds) := by
  induction each with
  | nil => exact Closed.nil.toOpen
  | @cons text found texts founds first others inductionHypothesis =>
    cases others with
    | nil => simpa [Text.join, List.intercalate] using first
    | cons second rest =>
      rw [Text.join, List.intercalate_cons_cons]
      exact (first.append separating closed).appendOpen inductionHypothesis

/-- A last blank has no lexeme. -/
theorem Closed.withoutBlank {text : Text} {found : List Lexeme} {b : UInt8}
    (blank : b ∈ [9, 10, 13, 32])
    (noSymbol : b ∉ d.symbols) (closed : d.Closed (text ++ [b]) found) :
    d.Open text found := by
  unfold Closed at closed
  rw [Dialect.run_append] at closed
  obtain ⟨⟨read, mode⟩, reached, behind⟩ := Option.bind_eq_some_iff.mp closed
  obtain ⟨⟨more, last⟩, ended, together⟩ := Option.map_eq_some_iff.mp behind
  obtain ⟨rfl, rfl⟩ := Prod.mk.inj together
  have stepped : d.step mode b = some (more, .outside []) := by
    simp only [run, Option.bind_eq_bind, Option.bind_eq_some_iff] at ended
    obtain ⟨⟨new, next⟩, stepped, ⟨others, final⟩, ⟨⟩, ⟨⟩⟩ := ended
    simpa using stepped
  have separates : d.separates b = true := by
    rw [Dialect.separates, List.contains_iff_mem]
    exact List.mem_append_right _ blank
  have outside (word : Text) : d.stepOutside word b =
      some (if word.isEmpty then [] else [.word word], .outside []) := by
    simp [stepOutside, separates, noSymbol]
  refine ⟨read, mode, more, reached, ?_, rfl⟩
  -- Between quotes a blank is content, so the automaton was outside them.
  cases mode with
  | outside word =>
    rw [step, outside] at stepped
    cases word <;> simpa [Mode.pending] using stepped
  | closing mark content =>
    rw [step] at stepped
    split at stepped
    · simp at stepped
    · rw [outside] at stepped
      simpa [Mode.pending] using stepped
  | inside mark content =>
    rw [step] at stepped
    repeat' split at stepped
    all_goals simp at stepped
  | escaping mark content =>
    rw [step] at stepped
    split at stepped <;> simp at stepped

/-- A text that is one word: no byte of it ends a word or starts a quotation, and no two
start a comment. -/
structure Word (d : Dialect) (text : Text) : Prop where
  nonempty : text ≠ []
  plain : ∀ b ∈ text, d.separates b = false ∧ d.isMark b = false
  silent : text.IsChain fun a b => d.comments.contains (a, b) = false

instance (text : Text) : Decidable (d.Word text) :=
  decidable_of_iff (text.isEmpty = false ∧
    text.all (fun b => !d.separates b && !d.isMark b) = true ∧
    text.IsChain fun a b => d.comments.contains (a, b) = false) <| by
    simp only [List.isEmpty_eq_false_iff, List.all_eq_true, Bool.and_eq_true,
      Bool.not_eq_true']
    exact ⟨fun ⟨nonempty, plain, silent⟩ => ⟨nonempty, plain, silent⟩,
      fun word => ⟨word.nonempty, word.plain, word.silent⟩⟩

/-- Bytes of a word are collected. -/
theorem run_word {start text : Text}
    (plain : ∀ b ∈ text, d.separates b = false ∧ d.isMark b = false)
    (silent : (start ++ text).IsChain fun a b => d.comments.contains (a, b) = false) :
    d.run (.outside start) text = some ([], .outside (start ++ text)) := by
  induction text generalizing start with
  | nil => simp [run]
  | cons b rest inductionHypothesis =>
    obtain ⟨noSeparator, noMark⟩ := plain b List.mem_cons_self
    have noComment : d.startsComment start b = false := by
      rw [startsComment, Option.any_eq_false]
      intro a last
      exact (List.isChain_append.mp silent).2.2 a last b rfl
    have stepped : d.step (.outside start) b = some ([], .outside (start ++ [b])) := by
      simp [step, stepOutside, noSeparator, noMark, noComment]
    rw [run_cons stepped, inductionHypothesis (fun c later =>
      plain c (List.mem_cons_of_mem b later))] <;>
      simp_all

/-- A word is one lexeme. -/
theorem Word.isOpen {text : Text} (word : d.Word text) : d.Open text [.word text] := by
  refine ⟨[], .outside text, [.word text], run_word word.plain word.silent, ?_, rfl⟩
  obtain ⟨b, rest, rfl⟩ := List.exists_cons_of_ne_nil word.nonempty
  rfl

/-- A quotation whose content was read up to the last quote is one lexeme. -/
theorem open_quoted {mark : UInt8} {content body : Text} (isMark : d.isMark mark = true)
    (visible : d.separates mark = false)
    (inside : d.run (.inside mark []) body = some ([], .inside mark content)) :
    d.Open (mark :: (body ++ [mark])) [.quoted mark content] := by
  have started : d.step (.outside []) mark = some ([], .inside mark []) := by
    simp [step, stepOutside, visible, isMark]
  have ended : d.run (.inside mark content) [mark] = some ([], .closing mark content) := by
    simp [run, step]
  refine ⟨[], .closing mark content, [.quoted mark content], ?_, rfl, rfl⟩
  rw [run_cons started, run_trans inside ended]
  rfl

/-- Between quotes that are doubled in the content every byte is content. -/
theorem run_doubled {mark : UInt8} (doubled : mark ∈ d.doubled)
    (noEscape : mark ∉ d.escaped) (content text : Text) :
    d.run (.inside mark content) (text.replaceByte mark [mark, mark]) =
      some ([], .inside mark (content ++ text)) := by
  induction text generalizing content with
  | nil => simp [Text.replaceByte, run]
  | cons b rest inductionHypothesis =>
    have one : d.run (.inside mark content) (if b = mark then [mark, mark] else [b]) =
        some ([], .inside mark (content ++ [b])) := by
      split
      · rename_i same
        simp [run, step, doubled, same]
      · rename_i other
        simp [run, step, noEscape, other]
    have all := run_trans one (inductionHypothesis (content ++ [b]))
    simpa [Text.replaceByte] using all

/-- A literal in which quotes are doubled is one lexeme, whatever its content is. -/
theorem open_doubled {mark : UInt8} (doubled : mark ∈ d.doubled)
    (noEscape : mark ∉ d.escaped) (text : Text) :
    d.Open (mark :: (text.replaceByte mark [mark, mark] ++ [mark])) [.quoted mark text] := by
  refine open_quoted ?_ (d.quotes_apart mark doubled) (run_doubled doubled noEscape [] text)
  simp [isMark, doubled]

/-- Between quotes that are escaped in the content every byte is content. -/
theorem run_escaped {mark : UInt8} (escaped : mark ∈ d.escaped) (noBackslash : mark ≠ 92)
    (content text : Text) :
    d.run (.inside mark content) (text.flatMap fun b =>
      if b = 92 ∨ b = mark then [92, b] else [b]) =
      some ([], .inside mark (content ++ text)) := by
  induction text generalizing content with
  | nil => simp [run]
  | cons b rest inductionHypothesis =>
    have one : d.run (.inside mark content) (if b = 92 ∨ b = mark then [92, b] else [b]) =
        some ([], .inside mark (content ++ [b])) := by
      split
      · rename_i special
        simp [run, step, escaped, noBackslash.symm, special]
      · rename_i ordinary
        obtain ⟨noEscape, noMark⟩ := not_or.mp ordinary
        simp [run, step, noEscape, noMark]
    have all := run_trans one (inductionHypothesis (content ++ [b]))
    simpa using all

/-- A literal in which quotes and backslashes are escaped is one lexeme, whatever its
content is. -/
theorem open_escaped {mark : UInt8} (escaped : mark ∈ d.escaped) (noBackslash : mark ≠ 92)
    (visible : d.separates mark = false) (text : Text) :
    d.Open (mark :: ((text.flatMap fun b => if b = 92 ∨ b = mark then [92, b] else [b]) ++
      [mark]))
      [.quoted mark text] := by
  refine open_quoted ?_ visible (run_escaped escaped noBackslash [] text)
  simp [isMark, escaped]

/-- Numbers are words of this language. -/
structure Numeric (d : Dialect) : Prop where
  plain : ∀ b ∈ Layout.numericBytes, d.separates b = false ∧ d.isMark b = false
  silent : ∀ pair ∈ d.comments, pair.1 ∈ Layout.numericBytes → pair = (45, 45)

/-- A text that looks like a number is a word. -/
theorem Numeric.word (numeric : d.Numeric) {text : Text} (nonempty : text ≠ [])
    (bytes : ∀ b ∈ text, b ∈ Layout.numericBytes) (apart : Layout.DashesApart text) :
    d.Word text := by
  refine ⟨nonempty, fun b member => numeric.plain b (bytes b member), ?_⟩
  refine List.IsChain.imp_of_mem_imp (fun a b first _ apart => ?_) apart
  rw [← Bool.not_eq_true, List.contains_iff_mem]
  intro comment
  obtain ⟨rfl, rfl⟩ := Prod.mk.inj (numeric.silent (a, b) comment (bytes a first))
  exact apart rfl rfl

/-- A number is a word. -/
theorem Numeric.number (numeric : d.Numeric) (x : Binary64) : d.Word x.text := by
  obtain ⟨bytes, apart⟩ := Layout.write_numeric Layout.plain x
  exact numeric.word (Layout.write_ne_nil Layout.plain x) bytes apart

/-- The numeral of a position is a word. -/
theorem Numeric.position (numeric : d.Numeric) (n : Nat) : d.Word (Text.ofNat n) := by
  refine numeric.word (Text.ofNat_ne_nil n) (fun b member =>
    Layout.digit_numeric (Text.ofNat_digits n b member)) ?_
  exact Layout.dashesApart_of_none fun b member =>
    Layout.digit_ne_dash (Text.ofNat_digits n b member)

end Dialect

/-- Reading that has a result for every member has one for the list. -/
theorem mapM_some {α β : Type} {read : α → Option β} {xs : List α} {ys : List β}
    (all : List.Forall₂ (fun x y => read x = some y) xs ys) : xs.mapM read = some ys := by
  induction all with
  | nil => rfl
  | cons first _ inductionHypothesis => simp [first, inductionHypothesis]

/-- What was written is read if each member is. -/
theorem mapM_map_some {α β : Type} {write : α → β} {read : β → Option α} {xs : List α}
    (each : ∀ x ∈ xs, read (write x) = some x) : (xs.map write).mapM read = some xs :=
  mapM_some (List.forall₂_map_left_iff.mpr (List.forall₂_same.mpr each))

namespace Lexeme

/-- The statements of a text: each ends in a semicolon, and nothing stands behind
the last one. -/
def statements (found : List Lexeme) : Option (List (List Lexeme)) :=
  let parts := found.splitOn (.symbol 59)
  if parts.getLast? = some [] then some parts.dropLast else none

/-- A lexeme that is not among others differs from each of them. -/
theorem ne_of_notMem {l : Lexeme} {found : List Lexeme} (missing : l ∉ found) :
    ∀ x ∈ found, (x == l) = false := by
  intro x member
  rw [beq_eq_false_iff_ne]
  rintro rfl
  exact missing member

/-- Statements one after the other are told apart. -/
theorem statements_flatMap (parts : List (List Lexeme))
    (noSemicolon : ∀ part ∈ parts, Lexeme.symbol 59 ∉ part) :
    statements (parts.flatMap fun part => part ++ [.symbol 59]) = some parts := by
  have split : (parts.flatMap fun part => part ++ [.symbol 59]).splitOn (.symbol 59) =
      parts ++ [[]] := by
    induction parts with
    | nil => rfl
    | cons part parts inductionHypothesis =>
      obtain ⟨first, others⟩ := List.forall_mem_cons.mp noSemicolon
      rw [List.flatMap_cons, List.append_assoc, List.singleton_append, List.splitOn,
        List.splitOnP_append_cons_of_forall_mem (ne_of_notMem first) _ (by simp),
        ← List.splitOn, inductionHypothesis others]
      rfl
  simp [statements, split]

/-- The parts of a statement, each of which starts with the keyword. -/
def clauses (keyword : Lexeme) (found : List Lexeme) : Option (List (List Lexeme)) :=
  match found.splitOn keyword with
  | [] :: parts => some parts
  | _ => none

/-- Clauses one after the other are told apart. -/
theorem clauses_flatMap {keyword : Lexeme} {parts : List (List Lexeme)}
    (noKeyword : ∀ part ∈ parts, keyword ∉ part) :
    clauses keyword (parts.flatMap fun part => keyword :: part) = some parts := by
  have split (first : List Lexeme) (plain : keyword ∉ first) :
      (first ++ parts.flatMap fun part => keyword :: part).splitOn keyword =
        first :: parts := by
    induction parts generalizing first with
    | nil =>
      rw [List.flatMap_nil, List.append_nil]
      exact List.splitOnP_eq_singleton (ne_of_notMem plain)
    | cons part parts inductionHypothesis =>
      obtain ⟨here, others⟩ := List.forall_mem_cons.mp noKeyword
      rw [List.flatMap_cons, List.cons_append, List.splitOn,
        List.splitOnP_append_cons_of_forall_mem (ne_of_notMem plain) _ (by simp),
        ← List.splitOn, inductionHypothesis others part here]
  have all := split [] (by simp)
  rw [List.nil_append] at all
  simp [clauses, all]

/-- The lexeme opens a bracket. -/
def opens (l : Lexeme) : Bool := [.symbol 40, .symbol 91, .symbol 123].contains l

/-- The lexeme closes a bracket. -/
def closes (l : Lexeme) : Bool := [.symbol 41, .symbol 93, .symbol 125].contains l

/-- The comma. -/
def comma : Lexeme := .symbol 44

/-- The lexeme is no symbol. -/
def isPlain : Lexeme → Bool
  | .word _ | .quoted _ _ => true
  | .symbol _ => false

/-- What stands in front of a bracket that closes, cut into members, and what stands
behind the bracket. -/
structure Members where
  first : List Lexeme
  others : List (List Lexeme)
  rest : List Lexeme

/-- The members with more lexemes in front of the first one. -/
def Members.onto (found : List Lexeme) (m : Members) :
    Members := { m with first := found ++ m.first }

/-- Lexemes in front of lexemes. -/
@[simp] theorem Members.onto_onto (first second : List Lexeme) (m : Members) :
    Members.onto first (Members.onto second m) = Members.onto (first ++ second) m := by
  simp [onto]

/-- Cut in front of the bracket that closes, at the commas that stand in no
inner brackets. -/
def members : (depth : Nat) → List Lexeme → Option Members
  | _, [] => none
  | depth, l :: rest =>
    if l.closes then
      match depth with
      | 0 => some ⟨[], [], rest⟩
      | depth + 1 => (members depth rest).map (.onto [l])
    else if l.opens then (members (depth + 1) rest).map (.onto [l])
    else if depth = 0 ∧ l = comma then (members 0 rest).map fun m =>
      ⟨[], m.first :: m.others, m.rest⟩
    else (members depth rest).map (.onto [l])

/-- The members of a list in brackets, which may have none, and what stands behind the
bracket that closes it. -/
def grouped (found : List Lexeme) : Option (List (List Lexeme) × List Lexeme) :=
  (members 0 found).map fun m =>
    (if m.first = [] ∧ m.others = [] then [] else m.first :: m.others, m.rest)

/-- The lexemes belong to one member. -/
def Member (found : List Lexeme) : Prop :=
  ∀ rest, members 0 (found ++ rest) = (members 0 rest).map (.onto found)

/-- A lexeme that is neither a bracket nor a comma. -/
theorem Member.single {l : Lexeme} (noClose : l.closes = false) (noOpen : l.opens = false)
    (noComma : l ≠ comma) :
    Member [l] := by
  intro rest
  simp [members, noClose, noOpen, noComma]

/-- A lexeme that is no symbol. -/
theorem Member.plain {l : Lexeme} (plain : l.isPlain = true) : Member [l] := by
  cases l with
  | word text => exact .single rfl rfl nofun
  | quoted mark content => exact .single rfl rfl nofun
  | symbol b => cases plain

/-- Lexemes one after the other. -/
theorem Member.append {first second : List Lexeme} (start : Member first)
    (continued : Member second) :
    Member (first ++ second) := by
  intro rest
  rw [List.append_assoc, start, continued, Option.map_map]
  congr 1
  funext m
  exact Members.onto_onto first second m

/-- What stands in a list of single lexemes is a comma or one of them. -/
theorem mem_separated {l : Lexeme} {items : List Lexeme}
    (member : l ∈ [comma].intercalate (items.map fun l => [l])) :
    l = comma ∨ l ∈ items := by
  induction items with
  | nil => cases member
  | cons first items inductionHypothesis =>
    cases items with
    | nil => exact .inr (by simpa [List.intercalate] using member)
    | cons second items =>
      rw [List.map_cons, List.map_cons, List.intercalate_cons_cons] at member
      rcases List.mem_append.mp member with here | later
      · rcases List.mem_append.mp here with isFirst | isComma
        · exact .inr (List.mem_cons.mpr (.inl (List.mem_singleton.mp isFirst)))
        · exact .inl (List.mem_singleton.mp isComma)
      · rcases inductionHypothesis later with isComma | among
        · exact .inl isComma
        · exact .inr (List.mem_cons_of_mem first among)

/-- Lexemes that are no symbols, with commas between them, contain no other symbol. -/
theorem notMem_separated {items : List Lexeme} (plain : ∀ l ∈ items, l.isPlain = true)
    {b : UInt8} (other : b ≠ 44) :
    Lexeme.symbol b ∉ [comma].intercalate (items.map fun l => [l]) := by
  intro member
  rcases mem_separated member with isComma | among
  · exact other (Lexeme.symbol.inj isComma)
  · cases plain _ among

/-- Within brackets a comma is as good as any other lexeme. -/
theorem members_inner {inner : List Lexeme}
    (plain : ∀ l ∈ inner, l.closes = false ∧ l.opens = false)
    (rest : List Lexeme) : members 1 (inner ++ rest) = (members 1 rest).map (.onto inner) := by
  induction inner with
  | nil =>
    rw [List.nil_append]
    cases members 1 rest <;> rfl
  | cons l inner inductionHypothesis =>
    obtain ⟨⟨noClose, noOpen⟩, others⟩ := List.forall_mem_cons.mp plain
    rw [List.cons_append, members]
    simp only [noClose, noOpen, Bool.false_eq_true, if_false, Nat.one_ne_zero, false_and]
    rw [inductionHypothesis others, Option.map_map]
    rfl

/-- A list in brackets, whatever commas it has. -/
theorem Member.group {opening closing : Lexeme} {inner : List Lexeme}
    (noClose : opening.closes = false)
    (opens : opening.opens = true) (closes : closing.closes = true)
    (plain : ∀ l ∈ inner, l.closes = false ∧ l.opens = false) :
    Member (opening :: (inner ++ [closing])) := by
  intro rest
  rw [List.cons_append, List.append_assoc, List.singleton_append, members]
  simp only [noClose, opens, Bool.false_eq_true, if_false, if_true, Nat.zero_add]
  rw [members_inner plain, members]
  simp only [closes, if_true, Option.map_map]
  congr 1
  funext m
  simp

/-- Members with commas between them are told apart. -/
theorem members_intercalate {items : List (List Lexeme)} {closing : Lexeme}
    (closes : closing.closes = true)
    (first : List Lexeme) (each : ∀ item ∈ first :: items, Member item) (rest : List Lexeme) :
    members 0 ([comma].intercalate (first :: items) ++ closing :: rest) =
      some ⟨first, items, rest⟩ := by
  induction items generalizing first with
  | nil =>
    have whole := each first List.mem_cons_self (closing :: rest)
    simpa [List.intercalate, members, closes, Members.onto] using whole
  | cons second items inductionHypothesis =>
    obtain ⟨here, others⟩ := List.forall_mem_cons.mp each
    rw [List.intercalate_cons_cons, List.append_assoc, List.append_assoc,
      List.singleton_append, here, members, inductionHypothesis second others]
    rw [if_neg (by decide), if_neg (by decide), if_pos ⟨rfl, rfl⟩]
    simp [Members.onto]

/-- The members of a list in brackets are told apart, unless the only one is empty. -/
theorem grouped_intercalate {items : List (List Lexeme)} {closing : Lexeme}
    (closes : closing.closes = true)
    (each : ∀ item ∈ items, Member item ∧ item ≠ []) (rest : List Lexeme) :
    grouped ([comma].intercalate items ++ closing :: rest) = some (items, rest) := by
  cases items with
  | nil => simp [grouped, members, closes, List.intercalate]
  | cons first items =>
    have nonempty := (each first List.mem_cons_self).2
    rw [grouped, members_intercalate closes first (fun item member => (each item member).1)]
    simp [nonempty]

/-- What stands behind expected lexemes. -/
def expect : (expected found : List Lexeme) → Option (List Lexeme)
  | [], found => some found
  | l :: expected, x :: found => if x = l then expect expected found else none
  | _ :: _, [] => none

/-- Lexemes that are there are found. -/
theorem expect_append (expected rest : List Lexeme) :
    expect expected (expected ++ rest) = some rest := by
  induction expected with
  | nil => simp [expect]
  | cons l expected inductionHypothesis => simpa [expect] using inductionHypothesis

end Lexeme

end Persona
