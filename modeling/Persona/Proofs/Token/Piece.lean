import Persona.Personality.Printer
import Persona.Proofs.Token.Spelling
import Persona.Proofs.Number.Numeral

/-!
# Pieces of a printed text

A printed text is put together from fixed words and symbols, names, strings and
numbers. A piece is closed when it spells its tokens in front of any text, because
it ends with a bracket or a blank; it is open when it does so only in front of a
delimiter or the end, because a name or a number would run on into more letters or
digits. Printing alternates the two: an open piece is always followed by a fixed
text that starts with a delimiter.
-/

namespace Persona

namespace Spelling

/-- A symbol or a keyword, which is spelled as its kind is called. -/
def fixed (kind : Kind) : Spelling := (kind, kind.text)

/-- A word that is no keyword. -/
def word (text : Text) : Spelling := (.name, text)

/-- A text between quotes. -/
def quoted (text : Text) : Spelling := (.string, text)

/-- A name as it is printed: a word where it can be one, and quoted otherwise. -/
def named (text : Text) : Spelling :=
  if text.isWord && (Kind.ofWord? text).isNone then word text else quoted text

/-- A numeral and perhaps a minus sign before it. -/
def signed (negative : Bool) (numeral : Text) : List Spelling :=
  if negative then [fixed .minus, (.number, numeral)] else [(.number, numeral)]

/-- The sign and the magnitude of a number; only finite numbers are spelled. -/
def number : Binary64 → List Spelling
  | .finite negative code => signed negative (Layout.plain.writeMagnitude code)
  | _ => []

/-- The sign and the digits of a count. -/
def count (n : Int) : List Spelling := signed (n < 0) (Text.ofNat n.natAbs)

end Spelling

namespace Text

open Character (isSeparator isLetter isAsciiDigit)

/-- The text spells these tokens. -/
def Spells (text : Text) (spellings : List Spelling) : Prop :=
  Token.Spelled text.characters spellings

/-- The bytes that may follow a name or a number in a printed text. -/
def delimiters : List UInt8 := [10, 32, 40, 41, 44, 47, 58, 59]

/-- The text is empty or starts with a delimiter. -/
def Delimited (text : Text) : Prop := ∀ b ∈ text.head?, b ∈ delimiters

/-- The piece spells its tokens in front of any text. -/
def Closed (piece : Text) (spellings : List Spelling) : Prop :=
  ∀ rest others, Spells rest others → Spells (piece ++ rest) (spellings ++ others)

/-- The piece spells its tokens in front of a delimiter or the end. -/
def Open (piece : Text) (spellings : List Spelling) : Prop :=
  ∀ rest others, Delimited rest → Spells rest others →
    Spells (piece ++ rest) (spellings ++ others)

/-- What is spelled in front of any text is spelled in front of a delimiter. -/
theorem Closed.toOpen {piece : Text} {spellings : List Spelling}
    (closed : Closed piece spellings) :
    Open piece spellings :=
  fun rest others _ spelled => closed rest others spelled

/-- Nothing spells nothing. -/
theorem closed_nil : Closed [] [] := fun _ _ spelled => spelled

/-- A closed piece may be followed by any closed piece. -/
theorem Closed.append {first second : Text} {before after : List Spelling}
    (closed : Closed first before) (following : Closed second after) :
    Closed (first ++ second) (before ++ after) := by
  intro rest others spelled
  rw [List.append_assoc, List.append_assoc]
  exact closed _ _ (following rest others spelled)

/-- A closed piece may be followed by any open piece, which leaves it open. -/
theorem Closed.appendOpen {first second : Text} {before after : List Spelling}
    (closed : Closed first before) (following : Open second after) :
    Open (first ++ second) (before ++ after) := by
  intro rest others delimited spelled
  rw [List.append_assoc, List.append_assoc]
  exact closed _ _ (following rest others delimited spelled)

/-- An open piece may be followed by a closed piece that starts with a delimiter,
which closes it. -/
theorem Open.append {first second : Text} {before after : List Spelling}
    (isOpen : Open first before)
    (following : Closed second after) (delimiter : ∃ b ∈ second.head?, b ∈ delimiters) :
    Closed (first ++ second) (before ++ after) := by
  intro rest others spelled
  rw [List.append_assoc, List.append_assoc]
  refine isOpen _ _ ?_ (following rest others spelled)
  obtain ⟨b, head, listed⟩ := delimiter
  obtain ⟨tail, rfl⟩ := List.head?_eq_some_iff.mp head
  rintro c ⟨rfl⟩
  exact listed

/-- An open piece spells its tokens at the end of a text. -/
theorem Open.spells {piece : Text} {spellings : List Spelling}
    (isOpen : Open piece spellings) :
    Spells piece spellings := by
  have ended := isOpen [] [] (by simp [Delimited]) .done
  simpa using ended

/-- Delimiters are ASCII bytes. -/
theorem delimiters_small {b : UInt8} (listed : b ∈ delimiters) : b < 0x80 := by
  have small : delimiters.all (fun b => b < 0x80) = true := by decide
  exact of_decide_eq_true (List.all_eq_true.mp small b listed)

/-- Only a slash runs on into a delimiter. -/
theorem runsOn_delimiter {kind : Kind} (notSlash : kind ≠ .divide) {b : UInt8}
    (listed : b ∈ delimiters) :
    kind.runsOn b.toNat = false := by
  have stops : delimiters.all (fun b => !kind.runsOn b.toNat) = true := by
    cases kind
    case divide => exact absurd rfl notSlash
    all_goals decide +kernel
  exact Bool.not_eq_true' _ ▸ List.all_eq_true.mp stops b listed

/-- The first character of a text that starts with an ASCII byte. -/
theorem head_characters {text : Text} {c : Character} (first : c ∈ text.characters.head?)
    (ascii : ∀ b ∈ text.head?, b < 0x80) : ∃ b ∈ text.head?, c.code = b.toNat := by
  cases text with
  | nil => cases first
  | cons b rest =>
    rw [characters_ascii b rest (ascii b rfl)] at first
    cases first
    exact ⟨b, rfl, rfl⟩

/-- A piece whose last token does not run on into a delimiter is open. -/
theorem open_of_spells {piece : Text} {spellings : List Spelling}
    (spelled : Spells piece spellings)
    (noSlash : ∀ s ∈ spellings.getLast?, s.1 ≠ .divide) : Open piece spellings := by
  intro rest others delimited following
  have ascii : ∀ b ∈ rest.head?, b < 0x80 := fun b head => delimiters_small (delimited b head)
  unfold Spells at *
  rw [characters_append piece rest ascii]
  refine spelled.append following fun s last d next => ?_
  obtain ⟨b, head, same⟩ := head_characters next ascii
  rw [same]
  exact runsOn_delimiter (noSlash s last) (delimited b head)

/-- A fixed text without comments is scanned to these tokens. -/
def spellsPlainly (text : Text) (spellings : List Spelling) : Bool :=
  text.all (· < 0x80) && text.all (· ≠ 47) &&
    match Token.scan text with
    | .ok stream => stream.tokens.map Token.spelling == spellings
    | .error _ => false

/-- No token of this kind runs on into anything. -/
def endsItself (kind : Kind) : Bool :=
  !([.number, .plus, .minus, .divide, .name].contains kind) && !kind.isKeyword

/-- A fixed text is closed when it ends with a blank or with a symbol that ends itself. -/
def closes (text : Text) (spellings : List Spelling) : Bool :=
  match text.getLast? with
  | none => spellings.isEmpty
  | some b =>
    if isSeparator b.toNat then spellsPlainly text.dropLast spellings
    else spellsPlainly text spellings && spellings.getLast?.all fun s => endsItself s.1

/-- What a fixed text is scanned to is what it spells. -/
theorem spellsPlainly_spells {text : Text} {spellings : List Spelling}
    (plain : spellsPlainly text spellings = true) :
    (∀ b ∈ text, b < 0x80) ∧ Spells text spellings := by
  unfold spellsPlainly at plain
  simp only [Bool.and_eq_true, List.all_eq_true, decide_eq_true_eq] at plain
  obtain ⟨⟨ascii, noSlash⟩, scanned⟩ := plain
  refine ⟨ascii, ?_⟩
  split at scanned
  · rename_i stream collected
    rw [← beq_iff_eq.mp scanned]
    refine Token.Spelled.of_collect (Nat.lt_succ_self _) ?_ collected
    intro c member slash
    obtain ⟨b, inText, -, rfl⟩ := ascii_of_mem_characters member (by omega)
    exact noSlash b inText (UInt8.toNat_inj.mp slash)
  · cases scanned

/-- A symbol that ends itself runs on into nothing. -/
theorem endsItself_stops {kind : Kind} (ends : endsItself kind = true) (code : Nat) :
    kind.runsOn code = false := by
  cases kind <;> first | rfl | cases ends

/-- A fixed text that closes is closed. -/
theorem closed_literal (text : Text) (spellings : List Spelling)
    (checked : closes text spellings = true) :
    Closed text spellings := by
  intro rest others following
  unfold closes at checked
  split at checked
  · rename_i nothing
    rw [List.getLast?_eq_none_iff.mp nothing, List.isEmpty_iff.mp checked]
    exact following
  rename_i b last
  split at checked
  · rename_i separates
    obtain ⟨ascii, spelled⟩ := spellsPlainly_spells checked
    obtain ⟨init, rfl⟩ := List.getLast?_eq_some_iff.mp last
    rw [List.dropLast_concat] at ascii spelled
    have small : b < 0x80 := by
      rw [UInt8.lt_iff_toNat_lt]
      simp [isSeparator] at separates ⊢
      omega
    unfold Spells at *
    rw [List.append_assoc, characters_append_ascii ascii, ← characters_of_ascii ascii,
      List.singleton_append, characters_ascii b _ small]
    exact spelled.append_blank separates following
  · simp only [Bool.and_eq_true] at checked
    obtain ⟨plain, ends⟩ := checked
    obtain ⟨ascii, spelled⟩ := spellsPlainly_spells plain
    unfold Spells at *
    rw [characters_append_ascii ascii, ← characters_of_ascii ascii]
    refine spelled.append following fun s last d _ => ?_
    rw [Option.mem_def.mp last] at ends
    exact endsItself_stops ends d.code

/-- The text starts with a delimiter. -/
def startsDelimited (text : Text) : Bool := text.head?.any delimiters.contains

/-- An open piece is closed by a fixed text that starts with a delimiter. -/
theorem Open.literal {piece : Text} {before : List Spelling} (isOpen : Open piece before)
    (text : Text) (spellings : List Spelling)
    (checked : (closes text spellings && startsDelimited text) = true) :
    Closed (piece ++ text) (before ++ spellings) := by
  simp only [Bool.and_eq_true, startsDelimited, Option.any_eq_true] at checked
  obtain ⟨closed, b, head, listed⟩ := checked
  exact isOpen.append (closed_literal text spellings closed) ⟨b, head, by simpa using listed⟩

/-- A text without quotes and line feeds can be written between quotes. -/
def Quotable (text : Text) : Prop := ∀ b ∈ text, b ≠ 34 ∧ b ≠ 10

instance (text : Text) : Decidable (Quotable text) :=
  List.decidableBAll (fun b => b ≠ 34 ∧ b ≠ 10) text

/-- A quoted text is one string, in front of anything. -/
theorem closed_inQuotes {text : Text} (quotable : Quotable text) :
    Closed text.inQuotes [.quoted text] := by
  intro rest others following
  have written : text.inQuotes ++ rest = 34 :: (text ++ 34 :: rest) := by
    simp [inQuotes, show ofString "\"" = [34] from rfl]
  have apart : characters (text ++ 34 :: rest) =
      text.characters ++ ⟨34, [34]⟩ :: rest.characters := by
    rw [characters_append text (34 :: rest) (by rintro b ⟨rfl⟩; decide),
      characters_ascii 34 rest (by decide)]
    rfl
  have inside : ∀ c ∈ text.characters, c.code ≠ 34 ∧ c.code ≠ 10 := by
    intro c member
    by_cases small : c.code < 0x80
    · obtain ⟨b, inText, -, rfl⟩ := ascii_of_mem_characters member small
      obtain ⟨noQuote, noLineFeed⟩ := quotable b inText
      exact ⟨fun quote => noQuote (UInt8.toNat_inj.mp quote),
        fun lineFeed => noLineFeed (UInt8.toNat_inj.mp lineFeed)⟩
    · omega
  have closed := Token.stringLexeme_closed ⟨34, [34]⟩ ⟨34, [34]⟩ text.characters
    rest.characters rfl inside
  have value : Token.valueOf .string (⟨34, [34]⟩ :: text.characters ++ [⟨34, [34]⟩]) =
      text := by
    simp [Token.valueOf, ofCharacters_characters]
  unfold Spells at *
  rw [written, characters_ascii 34 _ (by decide), apart]
  have read : Token.lexeme ⟨34, [34]⟩ (text.characters ++ ⟨34, [34]⟩ :: rest.characters) =
      ⟨.ok .string, ⟨34, [34]⟩ :: text.characters ++ [⟨34, [34]⟩], rest.characters⟩ := by
    rw [Token.lexeme_quote _ rfl, closed]
  have token := Token.Spelled.token (by rfl) read (fun _ _ => rfl) following
  rwa [value] at token

/-- A letter is visible. -/
theorem letter_visible {code : Nat} (letter : isLetter code = true) :
    isSeparator code = false := by
  by_contra separates
  simp [isSeparator] at separates
  have small : code < 0x80 := by omega
  simp [isLetter, small] at letter
  omega

/-- A bare word is one token in front of a delimiter. -/
theorem open_word {text : Text} (isWord : text.isWord = true) :
    Open text [((Kind.ofWord? text).getD .name, text)] := by
  refine open_of_spells ?_ ?_
  · unfold Text.isWord at isWord
    split at isWord
    · cases isWord
    rename_i first rest split
    simp only [Bool.and_eq_true, List.all_eq_true] at isWord
    have whole : ofCharacters (first :: rest) = text := by
      rw [← split, ofCharacters_characters]
    have within : ∀ c ∈ rest, Token.continuesName c.code = true := by
      intro c member
      have continues := isWord.2 c member
      simp only [Bool.or_eq_true, decide_eq_true_eq] at continues
      simp only [Token.continuesName, Bool.or_eq_true, decide_eq_true_eq]
      tauto
    have read := Token.wordLexeme_run first rest [] within (by simp)
    rw [List.append_nil, whole, ← Token.lexeme_letter rest isWord.1] at read
    have word := Token.Spelled.token (letter_visible isWord.1) read (by simp) .done
    have value : Token.valueOf ((Kind.ofWord? text).getD .name) (first :: rest) = text := by
      rcases Token.word_kind text with isName | keyword
      · rw [isName]; exact whole
      · generalize (Kind.ofWord? text).getD .name = kind at keyword
        cases kind <;> first | exact whole | cases keyword
    rw [value, ← split] at word
    exact word
  · rintro s ⟨rfl⟩ slash
    rcases Token.word_kind text with isName | keyword
    · rw [isName] at slash
      cases slash
    · rw [show (Kind.ofWord? text).getD .name = .divide from slash] at keyword
      cases keyword

/-- A name is one token in front of a delimiter, bare or quoted. -/
theorem open_asName {text : Text} (quotable : Quotable text) :
    Open text.asName [.named text] := by
  unfold asName Spelling.named
  split
  · rename_i bare
    simp only [Bool.and_eq_true, Option.isNone_iff_eq_none] at bare
    have word := open_word bare.1
    rwa [bare.2] at word
  · exact (closed_inQuotes quotable).toOpen

/-- A digit byte is an ASCII digit. -/
theorem digitByte_ascii {b : UInt8} (digit : isDigitByte b = true) :
    isAsciiDigit b.toNat = true := by
  simpa [isDigitByte, isAsciiDigit, UInt8.le_iff_toNat_le] using digit

/-- A digit byte is an ASCII byte. -/
theorem digitByte_small {b : UInt8} (digit : isDigitByte b = true) : b < 0x80 := by
  simp [isDigitByte, UInt8.le_iff_toNat_le] at digit
  rw [UInt8.lt_iff_toNat_lt]
  simp
  omega

/-- A digit is visible. -/
theorem digit_visible {code : Nat} (digit : isAsciiDigit code = true) :
    isSeparator code = false := by
  simp [isAsciiDigit, isSeparator] at digit ⊢
  omega

/-- Digits, and perhaps a point and more digits, spell a number. -/
theorem spells_plainNumeral {whole fraction : Text} (someDigit : whole ≠ [])
    (wholeDigits : ∀ b ∈ whole, isDigitByte b = true)
    (fractionDigits : ∀ b ∈ fraction, isDigitByte b = true) :
    Spells (Layout.plainNumeral whole fraction)
      [(.number, Layout.plainNumeral whole fraction)] := by
  obtain ⟨first, others, rfl⟩ := List.exists_cons_of_ne_nil someDigit
  have ascii : ∀ b ∈ Layout.plainNumeral (first :: others) fraction, b < 0x80 := by
    intro b member
    have cases : isDigitByte b = true ∨ b = 46 := by
      rcases List.mem_append.mp member with digit | point
      · exact .inl (wholeDigits b digit)
      split at point
      · cases point
      · rcases List.mem_cons.mp point with point | digit
        · exact .inr point
        · exact .inl (fractionDigits b digit)
    rcases cases with digit | rfl
    · exact digitByte_small digit
    · decide
  have digits {text : Text} (all : ∀ b ∈ text, isDigitByte b = true) :
      ∀ c ∈ text.map (fun b => (⟨b.toNat, [b]⟩ : Character)), isAsciiDigit c.code = true := by
    intro c member
    obtain ⟨b, inText, rfl⟩ := List.mem_map.mp member
    exact digitByte_ascii (all b inText)
  have firstDigit : isAsciiDigit first.toNat = true :=
    digitByte_ascii (wholeDigits first List.mem_cons_self)
  have otherDigits := digits fun b member => wholeDigits b (List.mem_cons_of_mem first member)
  have split : (Layout.plainNumeral (first :: others) fraction).characters =
      ⟨first.toNat, [first]⟩ ::
      (others ++ if fraction = [] then [] else 46 :: fraction).map fun b =>
        ⟨b.toNat, [b]⟩ := by
    rw [characters_of_ascii ascii]
    rfl
  have read : Token.lexeme ⟨first.toNat, [first]⟩
      ((others ++ if fraction = [] then [] else 46 :: fraction).map fun b => ⟨b.toNat, [b]⟩) =
        ⟨.ok .number, (Layout.plainNumeral (first :: others) fraction).characters, []⟩ := by
    rw [Token.lexeme_digit _ firstDigit, split]
    by_cases none : fraction = []
    · have whole := Token.numberLexeme_whole ⟨first.toNat, [first]⟩ _ [] otherDigits (by simp)
      simpa [none] using whole
    · have pointed := Token.numberLexeme_fraction ⟨first.toNat, [first]⟩ ⟨46, [46]⟩ _ _
        [] rfl otherDigits
        (digits fractionDigits) (by simpa using none) (by simp)
      simpa [none] using pointed
  have number := Token.Spelled.token (digit_visible firstDigit) read (by simp) .done
  unfold Spells
  rw [split]
  simpa [Token.valueOf, ofCharacters_characters] using number

/-- A number is its sign and its magnitude, in front of a delimiter. -/
theorem open_signed (negative : Bool) {numeral : Text}
    (spelled : Spells numeral [(.number, numeral)])
    (digit : ∃ b ∈ numeral.head?, isDigitByte b = true) :
    Open ((if negative then ofString "-" else []) ++ numeral)
      (Spelling.signed negative numeral) := by
  cases negative with
  | false => exact open_of_spells spelled (by rintro s ⟨rfl⟩; simp)
  | true =>
    refine open_of_spells ?_ (by rintro s ⟨rfl⟩; simp)
    obtain ⟨b, head, digit⟩ := digit
    obtain ⟨tail, rfl⟩ := List.head?_eq_some_iff.mp head
    have small := digitByte_small digit
    obtain ⟨ascii, minus⟩ := spellsPlainly_spells
      (show spellsPlainly "-" [.fixed .minus] = true by decide +kernel)
    unfold Spells at *
    simp only [if_true]
    rw [characters_append_ascii ascii, ← characters_of_ascii ascii]
    refine minus.append spelled ?_
    rintro s ⟨rfl⟩ d next
    rw [characters_ascii b tail small] at next
    cases next
    have range := digitByte_ascii digit
    simp [isAsciiDigit] at range
    simp [Spelling.fixed, Kind.runsOn]
    omega

/-- A finite number is spelled by its sign and its magnitude. -/
theorem open_number {x : Binary64} (finite : x.isFinite = true) :
    Open x.text (Spelling.number x) := by
  cases x with
  | nan => cases finite
  | infinity negative => cases finite
  | finite negative code =>
    obtain ⟨whole, fraction, exponent, power, spelled, numeral, plain, -, -⟩ :=
      Layout.writeMagnitude_plain Layout.plain code
    rw [plain fun _ => rfl, List.append_nil] at spelled
    have magnitude := spells_plainNumeral numeral.someDigit numeral.wholeDigits
      numeral.fractionDigits
    rw [← spelled] at magnitude
    have digit : ∃ b ∈ (Layout.plain.writeMagnitude code).head?, isDigitByte b = true := by
      rw [spelled]
      obtain ⟨first, others, rfl⟩ := List.exists_cons_of_ne_nil numeral.someDigit
      exact ⟨first, rfl, numeral.wholeDigits first List.mem_cons_self⟩
    have signed := open_signed negative magnitude digit
    cases negative with
    | false => exact signed
    | true => exact signed

/-- A count is spelled by its sign and its digits. -/
theorem open_count (n : Int) : Open (ofInt n) (Spelling.count n) := by
  have digits (n : Nat) : Spells (ofNat n) [(.number, ofNat n)] ∧
      ∃ b ∈ (ofNat n).head?, isDigitByte b = true := by
    refine ⟨?_, ?_⟩
    · have noFraction : ∀ b ∈ ([] : Text), isDigitByte b = true := by simp
      have numeral := spells_plainNumeral (ofNat_ne_nil n) (ofNat_digits n) noFraction
      simpa [Layout.plainNumeral] using numeral
    · obtain ⟨first, others, split⟩ := List.exists_cons_of_ne_nil (ofNat_ne_nil n)
      exact ⟨first, by simp [split], ofNat_digits n first (by simp [split])⟩
  cases n with
  | ofNat n => exact open_signed false (digits n).1 (digits n).2
  | negSucc n =>
    have same : Spelling.count (.negSucc n) = Spelling.signed true (ofNat (n + 1)) := by
      simp [Spelling.count, Int.negSucc_lt_zero]
    rw [same]
    exact open_signed true (digits (n + 1)).1 (digits (n + 1)).2

/-- A slash may stand between an open piece and one that starts with a letter. -/
theorem Open.slash {first second : Text} {before after : List Spelling}
    (isOpen : Open first before)
    (following : Open second after) (letter : ∃ b ∈ second.head?, b < 0x80 ∧ b ≠ 42 ∧ b ≠ 47) :
    Open (first ++ "/" ++ second) (before ++ [.fixed .divide] ++ after) := by
  intro rest others delimited spelled
  have next := following rest others delimited spelled
  obtain ⟨b, head, small, noStar, noSlash⟩ := letter
  obtain ⟨tail, rfl⟩ := List.head?_eq_some_iff.mp head
  have written : first ++ ofString "/" ++ b :: tail ++ rest =
      first ++ 47 :: b :: (tail ++ rest) := by
    simp [show ofString "/" = [47] from rfl]
  rw [written, List.append_assoc, List.append_assoc]
  refine isOpen _ _ (by rintro c ⟨rfl⟩; decide) ?_
  unfold Spells at *
  rw [characters_ascii 47 _ (by decide)]
  refine Token.Spelled.token rfl (Token.lexeme_slash _ rfl) ?_ next
  intro c first
  rw [characters_ascii b _ small] at first
  cases first
  have star : b.toNat ≠ 42 := fun same => noStar (UInt8.toNat_inj.mp same)
  have slash : b.toNat ≠ 47 := fun same => noSlash (UInt8.toNat_inj.mp same)
  simp [Kind.runsOn, star, slash]

end Text

end Persona
