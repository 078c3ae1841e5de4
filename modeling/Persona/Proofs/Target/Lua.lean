import Persona.Proofs.Target.Chunk
import Persona.Target.Lua

/-!
# The module read back

The module of a personality is read as its name, its traits with their strengths and its
domains with their topics and levels, in the order of the lists, whatever bytes the texts
are made of.

Proof: A text is escaped byte by byte, and each escaped byte is decoded on its own,
because a number behind a backslash always has three digits. So every literal is one
lexeme. What stands between the literals is fixed, and ends in a byte behind which
reading starts anew.
-/

namespace Persona.Lua

open Text (isDigitByte)

/-- What the module of a personality tells. -/
structure Contents where
  name : Text
  traits : List (Text × Binary64)
  knowledge : List (Text × List (Text × Text))

/-- A field of the table that the module returns, to which something is assigned. -/
def assignment (field : Text) : List Lexeme :=
  [.word "personality", .symbol 46, .word field, .symbol 61]

/-- What is assigned to a field. -/
def assigned {α : Type} (field : Text) (value : Reader α) : Reader α := fun found => do
  let ((), rest) ← expect (assignment field) found
  value rest

/-- The contents of a module: a fresh table gets three fields and is returned. -/
def contents? (found : List Lexeme) : Option Contents := do
  let ((), rest) ← expect [.word "local", .word "personality", .symbol 61, .symbol 123,
    .symbol 125] found
  let (name, rest) ← assigned "name" string rest
  let (traits, rest) ← assigned "traits" (table number) rest
  let (knowledge, rest) ← assigned "knowledge" (table (table string)) rest
  if rest = [.word "return", .word "personality"] then some ⟨name, traits, knowledge⟩ else none

/-- Any byte has a number of three digits. -/
theorem padded_byte (b : UInt8) : ∃ x y z, Layout.padded 3 b.toNat = [x, y, z] ∧
    (isDigitByte x = true ∧ isDigitByte y = true ∧ isDigitByte z = true) ∧
    10 * (10 * (x.toNat - 48) + (y.toNat - 48)) + (z.toNat - 48) = b.toNat := by
  obtain ⟨digits, -, value⟩ := Layout.padded_digits 3 b.toNat
  have three : (Layout.padded 3 b.toNat).length = 3 := by
    have short : (Text.ofNat b.toNat).length ≤ 3 := by
      rw [Text.length_ofNat, Decimal.length_le_iff (by decide)]
      exact Nat.lt_trans (UInt8.toNat_lt b) (by decide)
    simp only [Layout.padded, Layout.zeros, List.length_append, List.length_replicate]
    omega
  obtain ⟨x, y, z, spelled⟩ := List.length_eq_three.mp three
  rw [spelled] at digits value
  refine ⟨x, y, z, spelled, ?_, ?_⟩
  · simpa using digits
  · rw [← value]
    simp [Text.digitsValue]
    omega

/-- A number of three digits behind a backslash is decoded to its byte,
whatever follows. -/
theorem run_decimal (raw value : Text) (b : UInt8) :
    run (.escaping raw value) (Layout.padded 3 b.toNat) =
    some ([], .inside (raw ++ Layout.padded 3 b.toNat) (value ++ [b])) := by
  obtain ⟨x, y, z, spelled, ⟨first, second, third⟩, together⟩ := padded_byte b
  have bound : b.toNat < 256 := UInt8.toNat_lt b
  have afterFirst : step (.escaping raw value) x =
      some ([], .decimal (raw ++ [x]) value false (x.toNat - 48)) := by
    simp [step, first]
  have afterSecond : step (.decimal (raw ++ [x]) value false (x.toNat - 48)) y =
      some ([], .decimal (raw ++ [x] ++ [y]) value true (10 * (x.toNat - 48) +
        (y.toNat - 48))) := by
    simp [step, second]
  have afterThird : step (.decimal (raw ++ [x] ++ [y]) value true
      (10 * (x.toNat - 48) + (y.toNat - 48))) z =
      some ([], .inside (raw ++ [x] ++ [y] ++ [z]) (value ++ [b])) := by
    simp only [step, third, together, bound, if_true, UInt8.ofNat_toNat]
    rfl
  have atEnd : run (.inside (raw ++ [x] ++ [y] ++ [z]) (value ++ [b])) [] =
      some ([], .inside (raw ++ [x] ++ [y] ++ [z]) (value ++ [b])) := rfl
  have whole := run_cons afterFirst (run_cons afterSecond (run_cons afterThird atEnd))
  rw [spelled]
  simpa using whole

/-- Each escaped byte is decoded on its own. -/
theorem run_escapeByte (raw value : Text) (b : UInt8) :
    run (.inside raw value) (escapeByte b) =
      some ([], .inside (raw ++ escapeByte b) (value ++ [b])) := by
  have letter (c : UInt8) (noDigit : isDigitByte c = false) (noBreak : c ≠ 10 ∧ c ≠ 13) :
      run (.inside raw value) [92, c] =
        some ([], .inside (raw ++ [92, c]) (value ++ [(control? c).getD c])) := by
    simp [run, step, stepInside, noDigit, noBreak]
  unfold escapeByte
  split
  · subst b
    exact letter 92 rfl (by decide)
  split
  · subst b
    exact letter 34 rfl (by decide)
  split
  · subst b
    exact letter 110 rfl (by decide)
  split
  · subst b
    exact letter 114 rfl (by decide)
  split
  · subst b
    exact letter 116 rfl (by decide)
  split
  · have escaping : step (.inside raw value) 92 =
        some ([], .escaping (raw ++ [92]) value) := rfl
    have decoded := run_cons escaping (run_decimal (raw ++ [92]) value b)
    rw [List.append_assoc] at decoded
    exact decoded
  · rename_i noBackslash noQuote noFeed noReturn _ _
    simp [run, step, stepInside, noBackslash, noQuote, noFeed, noReturn]

/-- Between quotes every byte of a text is decoded to itself. -/
theorem run_escaped (raw value text : Text) :
    run (.inside raw value) (text.flatMap escapeByte) =
    some ([], .inside (raw ++ text.flatMap escapeByte) (value ++ text)) := by
  induction text generalizing raw value with
  | nil => simp [run]
  | cons b rest inductionHypothesis =>
    have all := run_trans (run_escapeByte raw value b)
      (inductionHypothesis (raw ++ escapeByte b) (value ++ [b]))
    simpa using all

/-- No byte between quotes is a control byte. -/
theorem escapeByte_visible (b : UInt8) : ∀ c ∈ escapeByte b, 0x20 ≤ c ∧ c ≠ 0x7F := by
  have constant (text : Text) (checked : text.all (fun c => 0x20 ≤ c && c != 0x7F) = true) :
      ∀ c ∈ text, 0x20 ≤ c ∧ c ≠ 0x7F := by simpa using checked
  unfold escapeByte
  repeat' split
  · exact constant _ (by decide)
  · exact constant _ (by decide)
  · exact constant _ (by decide)
  · exact constant _ (by decide)
  · exact constant _ (by decide)
  · obtain ⟨digits, -, -⟩ := Layout.padded_digits 3 b.toNat
    intro c member
    rcases List.mem_cons.mp member with rfl | isDigit
    · decide
    · have range := digits c isDigit
      simp only [isDigitByte, Bool.and_eq_true, decide_eq_true_eq,
        UInt8.le_iff_toNat_le] at range
      obtain ⟨low, high⟩ := range
      rw [UInt8.le_iff_toNat_le, ← UInt8.toNat_inj.ne]
      exact ⟨Nat.le_trans (by decide) low, (Nat.lt_of_le_of_lt high (by decide)).ne⟩
  · rename_i visible
    intro c member
    obtain rfl := List.mem_singleton.mp member
    simpa using visible

/-- The lexeme of a literal. -/
def literalLexeme (text : Text) : Lexeme := .string (text.flatMap escapeByte) text

/-- A literal is one lexeme, whatever its content is, wherever a quote may stand. -/
theorem run_literal {mode : Mode} {read : List Lexeme}
    (opens : step mode 34 = some (read, .inside [] [])) (text : Text) :
    run mode (literal text) = some (read ++ [literalLexeme text], .outside []) := by
  have inside := run_escaped [] [] text
  have ended : run (.inside (text.flatMap escapeByte) text) [34] =
      some ([literalLexeme text], .outside []) := rfl
  have whole := run_cons opens (run_trans inside ended)
  exact whole

/-- A literal is one lexeme. -/
theorem closed_literal (text : Text) : Closed (literal text) [literalLexeme text] := by
  have opens : step (.outside []) 34 = some ([], .inside [] []) := rfl
  exact run_literal opens text

/-- A digit is no letter. -/
theorem digit_noLetter {b : UInt8} (digit : isDigitByte b = true) :
    isLetterByte b = false := by
  simp only [isDigitByte, Bool.and_eq_true, decide_eq_true_eq, UInt8.le_iff_toNat_le,
    UInt8.reduceToNat] at digit
  simp [isLetterByte, UInt8.le_iff_toNat_le, ← UInt8.toNat_inj]
  omega

/-- A digit starts a number. -/
theorem start_digit {b : UInt8} (digit : isDigitByte b = true) :
    start b = some (.outside [b]) := by
  have apart {others : List UInt8} (noDigit : others.any isDigitByte = false) :
      others.contains b = false := by
    rw [Bool.eq_false_iff]
    intro listed
    exact List.any_eq_false.mp noDigit b (List.contains_iff_mem.mp listed) digit
  have noQuote : b ≠ 34 := by
    rintro rfl
    cases digit
  rw [start, apart rfl, apart rfl, if_neg Bool.false_ne_true, if_neg Bool.false_ne_true,
    if_neg noQuote, digit, Bool.or_true, if_pos rfl]

/-- A minus sign does not go together with a digit. -/
theorem joins_digit {b : UInt8} (digit : isDigitByte b = true) : joins 45 b = false := by
  have noMinus : b ≠ 45 := by
    rintro rfl
    cases digit
  simp [joins, noMinus]

/-- Digits and points continue a number. -/
theorem run_numeral {first : UInt8} (seen rest : Text) (digit : isDigitByte first = true)
    (numeric : ∀ b ∈ rest, isDigitByte b = true ∨ b = 46) :
    run (.outside (first :: seen)) rest = some ([], .outside (first :: seen ++ rest)) := by
  induction rest generalizing seen with
  | nil => simp [run]
  | cons b rest inductionHypothesis =>
    obtain ⟨here, later⟩ := List.forall_mem_cons.mp numeric
    have noLetter : isLetterByte b = false := by
      rcases here with isDigit | rfl
      · exact digit_noLetter isDigit
      · rfl
    have stepped : step (.outside (first :: seen)) b =
        some ([], .outside (first :: (seen ++ [b]))) := by
      simp [step, noLetter, here, startsNumeral, digit]
    have all := run_cons stepped (inductionHypothesis (seen ++ [b]) later)
    simpa using all

/-- A magnitude starts with a digit, and goes on with digits and a point. -/
theorem magnitude_numeric (code : Fin Binary64.codes) :
    ∃ first rest, Layout.plain.writeMagnitude code = first :: rest ∧
    isDigitByte first = true ∧ ∀ b ∈ rest, isDigitByte b = true ∨ b = 46 := by
  obtain ⟨whole, fraction, exponent, power, spelled, numeral, noExponent, -⟩ :=
    Layout.writeMagnitude_plain Layout.plain code
  obtain rfl := noExponent fun _ => rfl
  obtain ⟨first, others, rfl⟩ := List.exists_cons_of_ne_nil numeral.someDigit
  obtain ⟨digit, otherDigits⟩ := List.forall_mem_cons.mp numeral.wholeDigits
  refine ⟨first, others ++ if fraction = [] then [] else 46 ::
    fraction, by simpa [Layout.plainNumeral] using spelled, digit, ?_⟩
  intro b member
  rcases List.mem_append.mp member with inWhole | behind
  · exact .inl (otherDigits b inWhole)
  · split at behind
    · cases behind
    · rcases List.mem_cons.mp behind with isPoint | inFraction
      · exact .inr isPoint
      · exact .inl (numeral.fractionDigits b inFraction)

/-- The lexemes of a number. -/
def numberLexemes : Binary64 → List Lexeme
  | .finite false code => [.word (Layout.plain.writeMagnitude code)]
  | .finite true code => [.symbol 45, .word (Layout.plain.writeMagnitude code)]
  | x => [.word x.text]

/-- A number with a comma behind it. -/
theorem closed_number {x : Binary64} (finite : x.isFinite = true) :
    Closed (x.text ++ ",\n") (numberLexemes x ++ [.symbol 44]) := by
  cases x with
  | nan => cases finite
  | infinity negative => cases finite
  | finite negative code =>
    obtain ⟨first, rest, spelled, digit, numeric⟩ := magnitude_numeric code
    have starting : start first = some (.outside [first]) := start_digit digit
    have collected := run_numeral [] rest digit numeric
    have ended : run (.outside (first :: rest)) ",\n" =
        some ([.word (first :: rest), .symbol 44], .outside []) := rfl
    have behind := run_trans collected ended
    cases negative with
    | false =>
      have begun : step (.outside []) first = some ([], .outside [first]) := by
        simp [step, starting]
      have whole := run_cons begun behind
      simpa [Closed, Binary64.text, Layout.write, numberLexemes, spelled] using whole
    | true =>
      have minus : step (.outside []) 45 = some ([], .behind 45) := rfl
      have alone : joins 45 first = false := joins_digit digit
      have begun : step (.behind 45) first = some ([.symbol 45], .outside [first]) := by
        simp [step, starting, alone]
      have whole := run_cons minus (run_cons begun behind)
      change run (.outside []) (45 :: (Layout.plain.writeMagnitude code ++ ",\n")) = _
      simpa [numberLexemes, spelled] using whole

/-- A number is read back, with its sign. -/
theorem number_lexemes {x : Binary64} (finite : x.isFinite = true) (rest : List Lexeme) :
    number (numberLexemes x ++ rest) = some (x, rest) := by
  cases x with
  | nan => cases finite
  | infinity negative => cases finite
  | finite negative code =>
    obtain ⟨first, tail, spelled, digit, -⟩ := magnitude_numeric code
    have starts : startsNumeral (Layout.plain.writeMagnitude code) = true := by
      simp [spelled, startsNumeral, digit]
    have readBack : Binary64.read? (Layout.plain.writeMagnitude code) =
        some (.finite false code) :=
      Binary64.read?_write Layout.plain (.finite false code) rfl
    cases negative with
    | false => simp [numberLexemes, number, starts, readBack]
    | true => simp [numberLexemes, number, starts, readBack, Binary64.neg]

/-- The bytes of a literal and what they stand for. -/
def key (name : Text) : Text × Text := (name.flatMap escapeByte, name)

/-- The lexemes of a trait. -/
def traitLexemes (t : Trait) : List Lexeme :=
  fieldLexemes (key t.name) (numberLexemes t.strength)

/-- The lexemes of a topic. -/
def topicLexemes (t : Topic) : List Lexeme :=
  fieldLexemes (key t.name) [literalLexeme t.level.text]

/-- The lexemes of the table of a domain. -/
def topicTable (d : Domain) : List Lexeme :=
  .symbol 123 :: (d.topics.flatMap topicLexemes ++ [.symbol 125])

/-- The lexemes of a domain. -/
def domainLexemes (d : Domain) : List Lexeme := fieldLexemes (key d.name) (topicTable d)

/-- A field is closed if its value and the comma are. -/
theorem closed_field {indent : Text}
    (opens : run (.outside []) indent = some ([], .behind 91)) (name : Text) {value : Text}
    {found : List Lexeme} (closed : Closed value (found ++ [.symbol 44])) :
    Closed (indent ++ literal name ++ "] = " ++ value) (fieldLexemes (key name) found) := by
  have named : run (.behind 91) (literal name) = some ([.symbol 91] ++ [literalLexeme name],
      .outside []) :=
    run_literal rfl name
  have assigned : Closed "] = " [.symbol 93, .symbol 61] := rfl
  exact run_trans (run_trans (run_trans opens named) assigned) closed

/-- The line of a trait. -/
theorem closed_trait {t : Trait} (finite : t.strength.isFinite = true) :
    Closed (traitLine t) (traitLexemes t) := by
  have opens : run (.outside []) "  [" = some ([], .behind 91) := rfl
  have closed := closed_field opens t.name (closed_number finite)
  rw [traitLine, List.append_assoc _ t.strength.text]
  exact closed

/-- The line of a topic. -/
theorem closed_topic (t : Topic) : Closed (topicLine t) (topicLexemes t) := by
  have opens : run (.outside []) "    [" = some ([], .behind 91) := rfl
  have comma : Closed ",\n" [.symbol 44] := rfl
  have closed := closed_field opens t.name ((closed_literal t.level.text).append comma)
  rw [topicLine, List.append_assoc _ (literal t.level.text)]
  exact closed

/-- The lines of a domain. -/
theorem closed_domain (d : Domain) : Closed (domainLines d) (domainLexemes d) := by
  have opens : run (.outside []) "  [" = some ([], .behind 91) := rfl
  have topics : Closed (d.topics.flatMap topicLine) (d.topics.flatMap topicLexemes) :=
    .flatMap fun t _ => closed_topic t
  have opened : Closed "\x7b\n" [.symbol 123] := rfl
  have ended : Closed "  \x7d,\n" [.symbol 125, .symbol 44] := rfl
  have value : Closed ("\x7b\n" ++ d.topics.flatMap topicLine ++ "  \x7d,\n")
      (topicTable d ++ [.symbol 44]) := by
    simpa [topicTable] using (opened.append topics).append ended
  have closed := closed_field opens d.name value
  have together : ("] = \x7b\n" : Text) = "] = " ++ "\x7b\n" := rfl
  rw [domainLines, together]
  simpa [domainLexemes] using closed

/-- The lexemes of the module of a personality. -/
def moduleLexemes (p : Personality) : List Lexeme :=
  [.word "local", .word "personality", .symbol 61, .symbol 123, .symbol 125] ++
  (assignment "name" ++ ([literalLexeme p.name] ++
  (assignment "traits" ++ (.symbol 123 :: (p.traits.flatMap traitLexemes ++ .symbol 125 ::
  (assignment "knowledge" ++
    (.symbol 123 :: (p.knowledge.flatMap domainLexemes ++ .symbol 125 ::
  [.word "return", .word "personality"]))))))))

/-- The module is cut into its lexemes. -/
theorem closed_emit {p : Personality} (finite : ∀ t ∈ p.traits, t.strength.isFinite = true) :
    Closed (emit p) (moduleLexemes p) := by
  have first : Closed "local personality = \x7b\x7d\n\n"
      [.word "local", .word "personality", .symbol 61, .symbol 123, .symbol 125] := by
        decide +kernel
  have naming : Closed "personality.name = " (assignment "name") := by decide +kernel
  have named := closed_literal p.name
  have blankLine : Closed "\n\n" [] := rfl
  have traits : Closed "personality.traits = \x7b\n"
      (assignment "traits" ++ [.symbol 123]) := by decide +kernel
  have ended : Closed "\x7d\n\n" [.symbol 125] := rfl
  have knowledge : Closed "personality.knowledge = \x7b\n"
      (assignment "knowledge" ++ [.symbol 123]) := by decide +kernel
  have returned : Closed "return personality\n" [.word "return", .word "personality"] := by
    decide +kernel
  have traitLines : Closed (p.traits.flatMap traitLine) (p.traits.flatMap traitLexemes) :=
    .flatMap fun t member => closed_trait (finite t member)
  have domains : Closed (p.knowledge.flatMap domainLines)
      (p.knowledge.flatMap domainLexemes) :=
    .flatMap fun d _ => closed_domain d
  have whole :=
    first.append (naming.append
      (named.append (blankLine.append (traits.append (traitLines.append (ended.append
    (knowledge.append (domains.append (ended.append returned)))))))))
  simpa [emit, moduleLexemes] using whole

/-- A literal is read back. -/
theorem string_literalLexeme (text : Text) (rest : List Lexeme) :
    string ([literalLexeme text] ++ rest) = some (text, rest) := rfl

/-- The traits are read back. -/
theorem table_traits {p : Personality} (finite : ∀ t ∈ p.traits, t.strength.isFinite = true)
    (rest : List Lexeme) :
    table number (.symbol 123 :: (p.traits.flatMap traitLexemes ++ .symbol 125 :: rest)) =
      some (p.traits.map fun t => (t.name, t.strength), rest) :=
  table_fields (fun t => key t.name) (fun t => numberLexemes t.strength) Trait.strength
    (fun t member => number_lexemes (finite t member)) rest

/-- The topics of a domain are read back. -/
theorem table_topics (d : Domain) (rest : List Lexeme) :
    table string (topicTable d ++ rest) = some (d.topics.map fun t =>
      (t.name, t.level.text), rest) := by
  have regrouped : topicTable d ++ rest =
      .symbol 123 :: (d.topics.flatMap topicLexemes ++ .symbol 125 :: rest) := by
    simp [topicTable]
  rw [regrouped]
  exact table_fields (fun t : Topic => key t.name) (fun t => [literalLexeme t.level.text])
    (fun t => t.level.text)
    (fun t _ => string_literalLexeme t.level.text) rest

/-- The domains are read back. -/
theorem table_domains (p : Personality) (rest : List Lexeme) :
    table (table string) (.symbol 123 ::
      (p.knowledge.flatMap domainLexemes ++ .symbol 125 :: rest)) =
      some (p.knowledge.map fun d => (d.name, d.topics.map fun t => (t.name, t.level.text)),
      rest) :=
  table_fields (fun d => key d.name) topicTable (fun d => d.topics.map fun t =>
    (t.name, t.level.text))
    (fun d _ => table_topics d) rest

/-- An assignment is read as its value. -/
theorem assigned_append {α : Type} (field : Text) (value : Reader α) (found : List Lexeme) :
    assigned field value (assignment field ++ found) = value found := by
  simp [assigned, expect_append]

/-- The contents of the module are those of the personality. -/
theorem contents?_moduleLexemes {p : Personality}
    (finite : ∀ t ∈ p.traits, t.strength.isFinite = true) :
    contents? (moduleLexemes p) = some ⟨p.name, p.traits.map fun t => (t.name, t.strength),
      p.knowledge.map fun d => (d.name, d.topics.map fun t => (t.name, t.level.text))⟩ := by
  simp only [contents?, moduleLexemes, expect_append, assigned_append, string_literalLexeme,
    table_traits finite, table_domains, Option.bind_eq_bind, Option.bind_some, if_true]

/-- What a literal stands for. -/
def Lexeme.value? : Lexeme → Option Text
  | .string _ value => some value
  | .word _ | .symbol _ => none

/-- The lexeme is no literal. -/
def Lexeme.isCode : Lexeme → Bool
  | .word _ | .symbol _ => true
  | .string _ _ => false

/-- There is no control byte between the quotes, if the lexeme is a literal. -/
def Lexeme.Visible : Lexeme → Prop
  | .string raw _ => ∀ b ∈ raw, 0x20 ≤ b ∧ b ≠ 0x7F
  | .word _ | .symbol _ => True

/-- The texts of a personality that its module has, in their order. -/
def told (p : Personality) : List Text :=
  p.name :: (p.traits.map Trait.name ++ p.knowledge.flatMap fun d =>
    d.name :: d.topics.flatMap fun t => [t.name, t.level.text])

/-- Two personalities are of one shape if they have the same strengths and as many domains
and topics. -/
structure SameShape (p q : Personality) : Prop where
  strengths : q.traits.map Trait.strength = p.traits.map Trait.strength
  topics : (q.knowledge.map fun d => d.topics.length) = p.knowledge.map fun d =>
    d.topics.length

/-- Numbers have no literals in them. -/
theorem numberLexemes_code (x : Binary64) : ∀ l ∈ numberLexemes x, l.isCode = true := by
  cases x with
  | finite negative code => cases negative <;> simp [numberLexemes, Lexeme.isCode]
  | _ => simp [numberLexemes, Lexeme.isCode]

/-- What is no literal has no value, and there is nothing to see between its quotes. -/
theorem value?_code {l : Lexeme} (code : l.isCode = true) : l.value? = none ∧ l.Visible := by
  cases l with
  | string raw value => cases code
  | _ => exact ⟨rfl, trivial⟩

/-- Numbers have no values of literals. -/
theorem values_number (x : Binary64) : (numberLexemes x).filterMap Lexeme.value? = [] :=
  List.filterMap_eq_nil_iff.mpr fun l member => (value?_code (numberLexemes_code x l member)).1

/-- The literals of the module stand for the texts of the personality. -/
theorem values_module (p : Personality) :
    (moduleLexemes p).filterMap Lexeme.value? = told p := by
  have traits (t : Trait) : (traitLexemes t).filterMap Lexeme.value? = [t.name] := by
    simp [traitLexemes, fieldLexemes, Lexeme.value?, List.filterMap_cons, key, values_number]
  have topics (t : Topic) :
      (topicLexemes t).filterMap Lexeme.value? = [t.name, t.level.text] := by
    simp [topicLexemes, fieldLexemes, literalLexeme, Lexeme.value?, List.filterMap_cons, key]
  have domains (d : Domain) : (domainLexemes d).filterMap Lexeme.value? =
      d.name :: d.topics.flatMap fun t => [t.name, t.level.text] := by
    simp [domainLexemes, fieldLexemes, topicTable, Lexeme.value?, List.filterMap_cons, key,
      List.filterMap_flatMap, topics]
  simp [moduleLexemes, assignment, literalLexeme, Lexeme.value?, List.filterMap_cons,
    List.filterMap_flatMap, traits, domains, told, List.map_eq_flatMap]

/-- The lexemes of a field without its literals. -/
def fieldCode (value : List Lexeme) : List Lexeme :=
  .symbol 91 :: .symbol 93 :: .symbol 61 :: (value ++ [.symbol 44])

/-- The lexemes of a module without its literals, for these strengths and so many topics
in each domain. -/
def skeleton (strengths : List Binary64) (sizes : List Nat) : List Lexeme :=
  [.word "local", .word "personality", .symbol 61, .symbol 123, .symbol 125] ++
  (assignment "name" ++
  (assignment "traits" ++
    (.symbol 123 :: (strengths.flatMap (fun x => fieldCode (numberLexemes x)) ++ .symbol 125 ::
  (assignment "knowledge" ++ (.symbol 123 :: (sizes.flatMap (fun size =>
    fieldCode (.symbol 123 :: ((List.replicate size (fieldCode [])).flatten ++
      [.symbol 125]))) ++ .symbol 125 ::
  [.word "return", .word "personality"])))))))

/-- The code of a module depends on the shape of the personality only. -/
theorem code_module (p : Personality) : (moduleLexemes p).filter Lexeme.isCode =
    skeleton (p.traits.map Trait.strength) (p.knowledge.map fun d => d.topics.length) := by
  have numbers (x : Binary64) : (numberLexemes x).filter Lexeme.isCode = numberLexemes x :=
    List.filter_eq_self.mpr (numberLexemes_code x)
  have traits (t : Trait) : (traitLexemes t).filter Lexeme.isCode =
      fieldCode (numberLexemes t.strength) := by
    simp [traitLexemes, fieldLexemes, fieldCode, Lexeme.isCode, List.filter_cons, numbers]
  have topics (t : Topic) : (topicLexemes t).filter Lexeme.isCode = fieldCode [] := by
    simp [topicLexemes, fieldLexemes, literalLexeme, fieldCode, Lexeme.isCode,
      List.filter_cons]
  have domains (d : Domain) : (domainLexemes d).filter Lexeme.isCode =
      fieldCode (.symbol 123 :: ((List.replicate d.topics.length (fieldCode [])).flatten ++
        [.symbol 125])) := by
    have each : (d.topics.flatMap topicLexemes).filter Lexeme.isCode =
        (List.replicate d.topics.length (fieldCode [])).flatten := by
      rw [List.filter_flatMap, funext topics, List.flatMap, List.map_const']
    simp [domainLexemes, fieldLexemes, topicTable, fieldCode, Lexeme.isCode,
      List.filter_cons, each]
  simp [moduleLexemes, skeleton, assignment, literalLexeme, Lexeme.isCode, List.filter_cons,
    List.filter_flatMap, traits, domains, List.flatMap_map]

/-- The literal of a text is visible. -/
theorem visible_literal (text : Text) : (literalLexeme text).Visible := by
  intro b member
  obtain ⟨c, -, among⟩ := List.mem_flatMap.mp member
  exact escapeByte_visible c b among

/-- A field is visible if its value is. -/
theorem visible_field (name : Text) {value : List Lexeme} (visible : ∀ l ∈ value, l.Visible) :
    ∀ l ∈ fieldLexemes (key name) value, l.Visible := by
  intro l member
  simp only [fieldLexemes, List.mem_cons, List.mem_append, List.not_mem_nil,
    or_false] at member
  rcases member with rfl | rfl | rfl | rfl | within | rfl
  · trivial
  · exact visible_literal name
  · trivial
  · trivial
  · exact visible l within
  · trivial

/-- Every literal of the module is visible. -/
theorem visible_module (p : Personality) : ∀ l ∈ moduleLexemes p, l.Visible := by
  have traits (t : Trait) : ∀ l ∈ traitLexemes t, l.Visible :=
    visible_field t.name fun l member =>
      (value?_code (numberLexemes_code t.strength l member)).2
  have topics (t : Topic) : ∀ l ∈ topicLexemes t, l.Visible := by
    apply visible_field
    simpa using visible_literal t.level.text
  have domains (d : Domain) : ∀ l ∈ domainLexemes d, l.Visible := by
    apply visible_field
    simpa [topicTable, Lexeme.Visible, or_imp, forall_and] using fun l t _ => topics t l
  have name := visible_literal p.name
  simp only [moduleLexemes, assignment, List.forall_mem_append, List.forall_mem_cons,
    List.forall_mem_flatMap,
    List.not_mem_nil, false_implies, implies_true, and_true, Lexeme.Visible, true_and]
  exact ⟨name, fun t _ => traits t, fun d _ => domains d⟩

/-- The module of a personality with finite strengths is read as what the personality
tells, whatever bytes its texts are made of: its name, its traits with their strengths,
and its domains with their topics and the words for the levels, in the order of the lists.
Each literal stands for one text, and the code between the literals is that of every
personality of the same shape. There are no control bytes in literals. -/
theorem emit_contents {p : Personality} (finite : ∀ t ∈ p.traits, t.strength.isFinite = true) :
    ∃ found, lexemes (emit p) = some found ∧
      contents? found = some ⟨p.name, p.traits.map fun t => (t.name, t.strength),
        p.knowledge.map fun d => (d.name, d.topics.map fun t => (t.name, t.level.text))⟩ ∧
      (∀ level ∈ Level.all, Level.ofWord? level.text = some level) ∧
      found.filterMap Lexeme.value? = told p ∧
      (∀ q, SameShape p q → ∃ other, lexemes (emit q) = some other ∧
        other.filter Lexeme.isCode = found.filter Lexeme.isCode) ∧
      ∀ l ∈ found, l.Visible := by
  refine ⟨moduleLexemes p, (closed_emit finite).lexemes_eq,
    contents?_moduleLexemes finite, by decide +kernel,
    values_module p, ?_, visible_module p⟩
  intro q same
  have otherFinite : ∀ t ∈ q.traits, t.strength.isFinite = true := by
    intro t member
    have among : t.strength ∈ p.traits.map Trait.strength :=
      same.strengths ▸ List.mem_map_of_mem member
    obtain ⟨source, isTrait, sameStrength⟩ := List.mem_map.mp among
    exact sameStrength ▸ finite source isTrait
  refine ⟨moduleLexemes q, (closed_emit otherFinite).lexemes_eq, ?_⟩
  rw [code_module, code_module, same.strengths, same.topics]

/-- A personality whose texts would end their literals, or be read with the digits behind
their control bytes, if they were not escaped. -/
def cunning : Personality where
  name := "A \"quoted\"\\ name\nwith\x01control1"
  traits := [⟨"\"] = 1, --", .finite true Binary64.zeroCode, []⟩,
    ⟨"\x011", .finite false Binary64.zeroCode, []⟩]
  knowledge := [⟨"\x7d\r\n", [⟨"\t\x7f9", .expert⟩, ⟨"]]", .unlisted 7⟩], []⟩, ⟨"", [], []⟩]
  behaviors := []
  evolution := []

/-- The module reads back to the same texts, literal by literal, and no control
byte is in one. -/
theorem emit_contents_cunning : (∀ t ∈ cunning.traits, t.strength.isFinite = true) ∧
    ∃ found, lexemes (emit cunning) = some found ∧
      contents? found = some ⟨cunning.name, cunning.traits.map fun t => (t.name, t.strength),
        cunning.knowledge.map fun d =>
        (d.name, d.topics.map fun t => (t.name, t.level.text))⟩ ∧
      found.filterMap Lexeme.value? = told cunning ∧ ∀ l ∈ found, l.Visible := by
  have finite : ∀ t ∈ cunning.traits, t.strength.isFinite = true := by decide +kernel
  obtain ⟨found, cut, read, -, values, -, visible⟩ := emit_contents finite
  exact ⟨finite, found, cut, read, values, visible⟩

end Persona.Lua
