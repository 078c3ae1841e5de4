import Persona.Proofs.Number.Numeral

/-!
# Reading a chunk of Lua

A chunk is cut byte by byte. A string is decoded while it is read: behind a backslash
stands a letter for one of seven control bytes, or a number of up to three decimal digits,
as many as there are, or a byte that stands for itself. A line break or the end of the
text between quotes has no lexemes, and neither has a number behind a backslash that is
no byte.

Outside strings the automaton knows only what a table of strings and numbers needs. It
refuses comments, long strings, exponents and symbols of two bytes. What it does accept
is accepted without any doubt about where a literal ends.

Lexemes are then read to tables, each a list of pairs of a key and a value.
-/

namespace Persona.Lua

open Text (isDigitByte)

/-- The smallest parts of a chunk. A string has the bytes between its quotes and those
that they stand for. -/
inductive Lexeme where
  | word (text : Text)
  | symbol (byte : UInt8)
  | string (raw value : Text)
deriving DecidableEq, Repr

/-- Where in a chunk the automaton stands. -/
inductive Mode where
  /-- Outside strings, behind these bytes of a word. -/
  | outside (word : Text)
  /-- Behind a symbol, which another byte could make longer. -/
  | behind (symbol : UInt8)
  /-- Between quotes, behind these bytes, which stand for a value. -/
  | inside (raw value : Text)
  /-- Behind a backslash between quotes. -/
  | escaping (raw value : Text)
  /-- Behind one or two decimal digits of a byte between quotes. -/
  | decimal (raw value : Text) (second : Bool) (code : Nat)
deriving DecidableEq

/-- The lexemes that are under way, if the chunk may end here. -/
def Mode.pending : Mode → Option (List Lexeme)
  | .outside [] => some []
  | .outside word => some [.word word]
  | .behind symbol => some [.symbol symbol]
  | .inside _ _ | .escaping _ _ | .decimal _ _ _ _ => none

/-- A letter or an underscore. -/
def isLetterByte (b : UInt8) : Bool := (65 ≤ b && b ≤ 90) || (97 ≤ b && b ≤ 122) || b = 95

/-- The word starts like a number. -/
def startsNumeral (word : Text) : Bool := word.head?.any isDigitByte

/-- The two bytes mean something else than the symbol and what follows it: a comment, a
long string, a comparison, a concatenation or a fraction. -/
def joins (symbol b : UInt8) : Bool :=
  [(45, 45), (91, 91), (91, 61), (61, 61), (46, 46)].contains (symbol, b) ||
    (symbol = 46 && isDigitByte b)

/-- What a byte starts outside strings. -/
def start (b : UInt8) : Option Mode :=
  if [9, 10, 11, 12, 13, 32].contains b then some (.outside [])
  else if [44, 45, 46, 61, 91, 93, 123, 125].contains b then some (.behind b)
  else if b = 34 then some (.inside [] [])
  else if isLetterByte b || isDigitByte b then some (.outside [b])
  else none

/-- The control byte that a letter stands for behind a backslash. -/
def control? (b : UInt8) : Option UInt8 :=
  [(97, 7), (98, 8), (102, 12), (110, 10), (114, 13), (116, 9), (118, 11)].lookup b

/-- Read one byte between quotes. -/
def stepInside (raw value : Text) (b : UInt8) : Option (List Lexeme × Mode) :=
  if b = 34 then some ([.string raw value], .outside [])
  else if b = 92 then some ([], .escaping (raw ++ [b]) value)
  else if b = 10 || b = 13 then none
  else some ([], .inside (raw ++ [b]) (value ++ [b]))

/-- Read one byte. -/
def step : Mode → UInt8 → Option (List Lexeme × Mode)
  | .outside [], b => (start b).map fun next => ([], next)
  | .outside word, b =>
    if isLetterByte b then if startsNumeral word then none else some ([],
      .outside (word ++ [b]))
    else if isDigitByte b || (b = 46 && startsNumeral word) then some ([],
      .outside (word ++ [b]))
    else (start b).map fun next => ([.word word], next)
  | .behind symbol, b =>
    if joins symbol b then none else (start b).map fun next => ([.symbol symbol], next)
  | .inside raw value, b => stepInside raw value b
  | .escaping raw value, b =>
    if isDigitByte b then some ([], .decimal (raw ++ [b]) value false (b.toNat - 48))
    else if b = 10 || b = 13 then none
    else some ([], .inside (raw ++ [b]) (value ++ [(control? b).getD b]))
  | .decimal raw value second code, b =>
    if isDigitByte b then
      let longer := 10 * code + (b.toNat - 48)
      if !second then some ([], .decimal (raw ++ [b]) value true longer)
      else if longer < 256 then some ([], .inside (raw ++ [b]) (value ++ [UInt8.ofNat longer]))
      else none
    else stepInside raw (value ++ [UInt8.ofNat code]) b

/-- Read a text from a mode: the lexemes that were completed, and the mode behind them. -/
def run : Mode → Text → Option (List Lexeme × Mode)
  | mode, [] => some ([], mode)
  | mode, b :: rest => do
    let (read, next) ← step mode b
    let (more, last) ← run next rest
    return (read ++ more, last)

/-- The lexemes of a chunk. -/
def lexemes (text : Text) : Option (List Lexeme) := do
  let (read, last) ← run (.outside []) text
  let rest ← last.pending
  return read ++ rest

/-- Two parts that are read one after the other. -/
theorem run_trans {mode next last : Mode} {first second : Text} {read more : List Lexeme}
    (begun : run mode first = some (read, next))
    (continued : run next second = some (more, last)) :
    run mode (first ++ second) = some (read ++ more, last) := by
  induction first generalizing mode read with
  | nil =>
    obtain ⟨rfl, rfl⟩ := Prod.mk.inj (Option.some.inj begun)
    exact continued
  | cons b rest inductionHypothesis =>
    simp only [run, Option.bind_eq_bind, Option.bind_eq_some_iff] at begun
    obtain ⟨⟨now, middle⟩, stepped, ⟨later, reached⟩, others, together⟩ := begun
    obtain ⟨rfl, rfl⟩ := Prod.mk.inj (Option.some.inj together)
    simp [run, stepped, inductionHypothesis others]

/-- One byte and then the others. -/
theorem run_cons {mode next last : Mode} {b : UInt8} {rest : Text} {read more : List Lexeme}
    (stepped : step mode b = some (read, next))
    (continued : run next rest = some (more, last)) :
    run mode (b :: rest) = some (read ++ more, last) := by
  simp [run, stepped, continued]

/-- The text has these lexemes, and nothing that follows can change them. -/
def Closed (text : Text) (found : List Lexeme) :
    Prop := run (.outside []) text = some (found, .outside [])

instance (text : Text) (found : List Lexeme) : Decidable (Closed text found) :=
  inferInstanceAs (Decidable (_ = _))

/-- The lexemes of a closed text. -/
theorem Closed.lexemes_eq {text : Text} {found : List Lexeme} (closed : Closed text found) :
    lexemes text = some found := by
  rw [Closed] at closed
  simp [lexemes, closed, Mode.pending]

/-- Behind a closed text reading starts anew. -/
theorem Closed.append {first second : Text} {found more : List Lexeme}
    (begun : Closed first found)
    (continued : Closed second more) : Closed (first ++ second) (found ++ more) :=
  run_trans begun continued

/-- Closed texts one after the other. -/
theorem Closed.flatMap {α : Type} {items : List α} {write : α → Text} {found : α → List Lexeme}
    (each : ∀ item ∈ items, Closed (write item) (found item)) :
    Closed (items.flatMap write) (items.flatMap found) := by
  induction items with
  | nil => rfl
  | cons item items inductionHypothesis =>
    obtain ⟨first, others⟩ := List.forall_mem_cons.mp each
    exact first.append (inductionHypothesis others)

/-- A reader of a first part of the lexemes, which leaves the others. -/
abbrev Reader (α : Type) : Type := List Lexeme → Option (α × List Lexeme)

/-- The expected lexemes. -/
def expect : (expected : List Lexeme) → Reader Unit
  | [], found => some ((), found)
  | l :: expected, x :: found => if x = l then expect expected found else none
  | _ :: _, [] => none

/-- A string. -/
def string : Reader Text
  | .string _ value :: rest => some (value, rest)
  | _ => none

/-- A number, which may have a minus sign. -/
def number : Reader Binary64
  | .word word :: rest =>
    if startsNumeral word then (Binary64.read? word).map fun x => (x, rest) else none
  | .symbol 45 :: .word word :: rest =>
    if startsNumeral word then (Binary64.read? word).map fun x => (x.neg, rest) else none
  | _ => none

/-- The fields up to the brace that closes a table, with the brace: keys in brackets and
their values, with commas between them and perhaps behind the last one. Each field takes
lexemes, so `fuel` above the number of lexemes is never used up. -/
def fields {α : Type} (value : Reader α) : (fuel : Nat) → Reader (List (Text × α))
  | _, .symbol 125 :: rest => some ([], rest)
  | fuel + 1, .symbol 91 :: .string _ key :: .symbol 93 :: .symbol 61 :: found => do
    let (x, behind) ← value found
    match behind with
    | .symbol 44 :: rest =>
      let (others, rest) ← fields value fuel rest
      return ((key, x) :: others, rest)
    | .symbol 125 :: rest => return ([(key, x)], rest)
    | _ => none
  | _, _ => none

/-- A table. -/
def table {α : Type} (value : Reader α) : Reader (List (Text × α))
  | .symbol 123 :: found => fields value (found.length + 1) found
  | _ => none

/-- Lexemes that are there are found. -/
theorem expect_append (expected rest : List Lexeme) :
    expect expected (expected ++ rest) = some ((), rest) := by
  induction expected with
  | nil => simp [expect]
  | cons l expected inductionHypothesis => simpa [expect] using inductionHypothesis

/-- The lexemes of a field with a comma behind it. -/
def fieldLexemes (key : Text × Text) (value : List Lexeme) : List Lexeme :=
  .symbol 91 :: .string key.1 key.2 :: .symbol 93 :: .symbol 61 :: (value ++ [.symbol 44])

/-- One field and then the others. -/
theorem fields_step {β : Type} {value : Reader β} {key : Text × Text}
    {written more : List Lexeme} {x : β}
    (reads : ∀ rest, value (written ++ rest) = some (x, rest)) (fuel : Nat) :
    fields value (fuel + 1) (fieldLexemes key written ++ more) =
      (fields value fuel more).map fun (others, rest) => ((key.2, x) :: others, rest) := by
  simp only [fieldLexemes, List.cons_append, List.append_assoc, List.nil_append, fields,
    reads, Option.bind_eq_bind, Option.bind_some]
  cases fields value fuel more <;> rfl

/-- Fields with a comma behind each are read in their order. -/
theorem table_fields {α β : Type} {value : Reader β} {items : List α}
    (key : α → Text × Text) (written : α → List Lexeme) (read : α → β)
    (each : ∀ item ∈ items, ∀ rest, value (written item ++ rest) = some (read item, rest))
    (rest : List Lexeme) :
    table value (.symbol 123 :: (items.flatMap (fun item =>
      fieldLexemes (key item) (written item)) ++ .symbol 125 :: rest)) =
      some (items.map fun item => ((key item).2, read item), rest) := by
  have whole (fuel : Nat) (enough : (items.flatMap fun item =>
      fieldLexemes (key item) (written item)).length ≤ fuel) :
      fields value fuel (items.flatMap (fun item =>
        fieldLexemes (key item) (written item)) ++ .symbol 125 :: rest) =
        some (items.map fun item => ((key item).2, read item), rest) := by
    induction items generalizing fuel with
    | nil => simp [fields]
    | cons item items inductionHypothesis =>
      obtain ⟨first, others⟩ := List.forall_mem_cons.mp each
      simp only [List.flatMap_cons, List.length_append, fieldLexemes,
        List.length_cons] at enough
      obtain ⟨fuel, rfl⟩ : ∃ less, fuel = less + 1 :=
        Nat.exists_eq_add_one_of_ne_zero (by omega)
      have later := inductionHypothesis others fuel (by simp only [fieldLexemes]; omega)
      rw [List.flatMap_cons, List.append_assoc, fields_step first, later]
      rfl
  apply whole
  rw [List.length_append]
  omega

end Persona.Lua
