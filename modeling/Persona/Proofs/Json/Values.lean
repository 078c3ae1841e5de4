import Persona.Proofs.Json.Strings
import Persona.Proofs.Number.Numeral

/-!
# JSON values read back

A written value reads back as the value with its strings repaired, whatever blank
indentation it was written with. Numbers have to be literals of the format, and
the value must not be nested deeper than the reader goes.
-/

namespace Persona.Json

mutual

/-- The value with every string and every name repaired. -/
def repaired : Json → Json
  | .null => .null
  | .bool value => .bool value
  | .number literal => .number literal
  | .string value => .string value.toUtf8
  | .list items => .list (repairedItems items)
  | .object fields => .object (repairedFields fields)

/-- Items with their strings repaired. -/
def repairedItems : List Json → List Json
  | [] => []
  | item :: items => repaired item :: repairedItems items

/-- Fields with their strings and names repaired. -/
def repairedFields : List (Text × Json) → List (Text × Json)
  | [] => []
  | (name, value) :: fields => (name.toUtf8, repaired value) :: repairedFields fields

end

/-- Items are repaired one by one. -/
@[simp] theorem repairedItems_eq_map (items : List Json) :
    repairedItems items = items.map repaired := by
  induction items with
  | nil => rfl
  | cons item items inductionHypothesis =>
    rw [repairedItems, inductionHypothesis, List.map_cons]

/-- A number literal of the format, with its sign. -/
def IsNumber (literal : Text) : Prop :=
  ∃ (negative : Bool) (whole fraction exponent : Text),
    Layout.IsNumeral whole fraction exponent ∧
    literal = (if negative then [45] else []) ++ (Layout.plainNumeral whole fraction ++
      exponent)

/-- The value is nested at most `levels` deep and its numbers are literals of
the format. -/
def Fits : (levels : Nat) → Json → Prop
  | _, .null | _, .bool _ | _, .string _ => True
  | _, .number literal => IsNumber literal
  | 0, .list _ | 0, .object _ => False
  | levels + 1, .list items => ∀ item ∈ items, Fits levels item
  | levels + 1, .object fields => ∀ field ∈ fields, Fits levels field.2

/-- More levels do no harm. -/
theorem Fits.more {levels : Nat} {value : Json} (fits : value.Fits levels) (extra : Nat) :
    value.Fits (levels + extra) := by
  induction levels generalizing value with
  | zero =>
    cases value with
    | list items => exact fits.elim
    | object fields => exact fits.elim
    | null => simp [Fits]
    | bool value => simp [Fits]
    | number literal => simpa [Fits] using fits
    | string value => simp [Fits]
  | succ levels inductionHypothesis =>
    rw [Nat.add_right_comm]
    cases value with
    | list items => exact fun item member => inductionHypothesis (fits item member)
    | object fields => exact fun field member => inductionHypothesis (fits field member)
    | null => trivial
    | bool value => trivial
    | number literal => exact fits
    | string value => trivial

/-- A number is written as a literal of the format. -/
theorem isNumber_write (l : Layout) {x : Binary64} (finite : x.isFinite = true) :
    IsNumber (l.write x) := by
  cases x with
  | nan => cases finite
  | infinity negative => cases finite
  | finite negative code =>
    obtain ⟨whole, fraction, exponent, -, spelled, numeral, -⟩ :=
      Layout.writeMagnitude_plain l code
    refine ⟨negative, whole, fraction, exponent, numeral, ?_⟩
    rw [← spelled]
    cases negative <;> rfl

/-- What follows does not continue a number. -/
def Ends (rest : Text) : Prop :=
  ∀ b ∈ rest.head?, Text.isDigitByte b = false ∧ b ≠ 46 ∧ b ≠ 101 ∧ b ≠ 69

/-- Digits are read up to their end. -/
theorem readDigits?_append {digits rest : Text} (someDigit : digits ≠ [])
    (allDigits : ∀ b ∈ digits, Text.isDigitByte b = true)
    (stops : ∀ b ∈ rest.head?, Text.isDigitByte b = false) :
    readDigits? (digits ++ rest) = some (digits, rest) := by
  obtain ⟨taken, left⟩ := Text.digits_append allDigits stops
  simp [readDigits?, taken, left, someDigit]

/-- The integer part is read up to its end. -/
theorem readInteger?_append {whole rest : Text} (someDigit : whole ≠ [])
    (wholeDigits : ∀ b ∈ whole, Text.isDigitByte b = true)
    (noLeadingZero : whole = [48] ∨ whole.head? ≠ some 48)
    (stops : ∀ b ∈ rest.head?, Text.isDigitByte b = false) :
    readInteger? (whole ++ rest) = some (whole, rest) := by
  rcases noLeadingZero with rfl | nonzero
  · rfl
  · rw [← readDigits?_append someDigit wholeDigits stops, readInteger?.eq_def]
    split
    · rename_i zero
      obtain ⟨first, others, rfl⟩ := List.exists_cons_of_ne_nil someDigit
      exact absurd (congrArg some (List.cons.inj zero).1) nonzero
    · rfl

/-- The fraction is read up to its end. -/
theorem readFraction?_append {fraction rest : Text}
    (fractionDigits : ∀ b ∈ fraction, Text.isDigitByte b = true)
    (stops : ∀ b ∈ rest.head?, Text.isDigitByte b = false ∧ b ≠ 46) :
    readFraction? ((if fraction = [] then [] else 46 :: fraction) ++ rest) =
      some (if fraction = [] then [] else 46 :: fraction, rest) := by
  split
  · rw [List.nil_append, readFraction?.eq_def]
    split
    · exact absurd rfl (stops 46 rfl).2
    · rfl
  · rename_i someDigit
    rw [List.cons_append, readFraction?,
      readDigits?_append someDigit fractionDigits fun b member => (stops b member).1]
    rfl

/-- The exponent is read up to its end. -/
theorem readExponent?_append {exponent rest : Text} (ends : Ends rest)
    (form : exponent = [] ∨ ∃ sign digits, exponent = 101 :: sign :: digits ∧
      (sign = 43 ∨ sign = 45) ∧
      digits ≠ [] ∧ ∀ b ∈ digits, Text.isDigitByte b = true) :
    readExponent? (exponent ++ rest) = some (exponent, rest) := by
  rcases form with rfl | ⟨sign, digits, rfl, signs, someDigit, allDigits⟩
  · cases rest with
    | nil => rfl
    | cons b rest =>
      obtain ⟨-, -, lower, upper⟩ := ends b rfl
      simp [readExponent?, lower, upper]
  · have reads := readDigits?_append someDigit allDigits fun b member => (ends b member).1
    rcases signs with rfl | rfl <;> simp [readExponent?, reads]

/-- A literal is read as it was written. -/
theorem readNumber?_append {literal rest : Text} (number : IsNumber literal)
    (ends : Ends rest) :
    readNumber? (literal ++ rest) = some (literal, rest) := by
  obtain ⟨negative, whole, fraction, exponent, numeral, rfl⟩ := number
  have afterFraction : ∀ b ∈ (exponent ++ rest).head?, Text.isDigitByte b = false ∧
      b ≠ 46 := by
    rcases numeral.exponentForm with rfl | ⟨sign, digits, rfl, -, -, -⟩
    · exact fun b member => ⟨(ends b member).1, (ends b member).2.1⟩
    · exact numeral.stops
  have afterWhole :
      ∀ b ∈ ((if fraction = [] then [] else 46 :: fraction) ++ (exponent ++ rest)).head?,
      Text.isDigitByte b = false := by
    split
    · exact fun b member => (afterFraction b member).1
    · rintro b ⟨rfl⟩
      decide
  have integer := readInteger?_append numeral.someDigit numeral.wholeDigits
    numeral.noLeadingZero afterWhole
  have point := readFraction?_append numeral.fractionDigits afterFraction
  have power := readExponent?_append ends numeral.exponentForm
  have unsigned : Layout.plainNumeral whole fraction ++ exponent ++ rest =
      whole ++ ((if fraction = [] then [] else 46 :: fraction) ++ (exponent ++ rest)) := by
    simp [Layout.plainNumeral]
  obtain ⟨first, others, split⟩ := List.exists_cons_of_ne_nil numeral.someDigit
  have notMinus : first ≠ 45 := by
    rintro rfl
    have digit := numeral.wholeDigits 45 (by simp [split])
    exact absurd digit (by decide)
  rw [List.append_assoc, unsigned]
  cases negative with
  | true => simp [readNumber?, integer, point, power, Layout.plainNumeral]
  | false =>
    rw [split, List.cons_append] at integer
    simp [readNumber?, split, notMinus, integer, point, power, Layout.plainNumeral]

/-- Blanks are skipped. -/
theorem skipSpace_append {blanks rest : Text} (blank : ∀ b ∈ blanks, isSpace b = true) :
    skipSpace (blanks ++ rest) = skipSpace rest :=
  List.dropWhile_append_of_pos blank

/-- Nothing is skipped in front of a byte that is not blank. -/
theorem skipSpace_cons {b : UInt8} {rest : Text} (visible : isSpace b = false) :
    skipSpace (b :: rest) = b :: rest := by
  simp [skipSpace, visible]

section Indented

variable {indent : Text} (blank : ∀ b ∈ indent, isSpace b = true)

include blank in
/-- A line break and its indentation are blank. -/
theorem lineBreak_blank (depth : Nat) : ∀ b ∈ lineBreak indent depth, isSpace b = true := by
  intro b member
  unfold lineBreak at member
  split at member
  · cases member
  rcases List.mem_append.mp member with lineFeed | indentation
  · obtain rfl : b = 10 := by simpa [Text.ofString, String.utf8EncodeChar] using lineFeed
    rfl
  · obtain ⟨copy, copies, inCopy⟩ := List.mem_flatten.mp indentation
    rw [List.eq_of_mem_replicate copies] at inCopy
    exact blank b inCopy

include blank in
/-- A line break in front of a byte that is not blank is skipped. -/
theorem skipSpace_lineBreak (depth : Nat) {b : UInt8} {rest : Text}
    (visible : isSpace b = false) :
    skipSpace (lineBreak indent depth ++ b :: rest) = b :: rest := by
  rw [skipSpace_append (lineBreak_blank blank depth), skipSpace_cons visible]

/-- A number ends at a line break, at a comma and at a bracket. -/
theorem ends_lineBreak (depth : Nat) {b : UInt8} (rest : Text)
    (mark : Text.isDigitByte b = false ∧ b ≠ 46 ∧ b ≠ 101 ∧ b ≠ 69) :
    Ends (lineBreak indent depth ++ b :: rest) := by
  unfold lineBreak
  split
  · rintro c ⟨rfl⟩
    exact mark
  · rintro c ⟨rfl⟩
    decide

end Indented

/-- A literal starts with a digit or a minus sign. -/
theorem IsNumber.starts {literal : Text} (number : IsNumber literal) :
    ∃ b rest, literal = b :: rest ∧ (Text.isDigitByte b = true ∨ b = 45) := by
  obtain ⟨negative, whole, fraction, exponent, numeral, rfl⟩ := number
  obtain ⟨first, others, rfl⟩ := List.exists_cons_of_ne_nil numeral.someDigit
  cases negative with
  | true => exact ⟨45, _, rfl, .inr rfl⟩
  | false => exact ⟨first, _, rfl, .inl (numeral.wholeDigits first List.mem_cons_self)⟩

/-- A byte that starts a literal starts nothing else. -/
theorem startsNumber_ne {b c : UInt8} (starts : Text.isDigitByte b = true ∨ b = 45)
    (other : (Text.isDigitByte c || c == 45) = false) : b ≠ c := by
  rintro rfl
  rcases starts with digit | rfl
  · simp [digit] at other
  · simp at other

/-- A written value starts with a visible byte, which closes nothing. -/
theorem writeAt_starts (indent : Text) (depth : Nat) {levels : Nat} {value : Json}
    (fits : value.Fits levels) :
    ∃ b rest, writeAt .answer indent depth value = b :: rest ∧ isSpace b = false ∧ b ≠ 93 := by
  cases value with
  | null => exact ⟨110, _, rfl, by decide, by decide⟩
  | bool value =>
    cases value with
    | true => exact ⟨116, _, rfl, by decide, by decide⟩
    | false => exact ⟨102, _, rfl, by decide, by decide⟩
  | number literal =>
    have number : IsNumber literal := by simpa [Fits] using fits
    obtain ⟨b, rest, rfl, starts⟩ := number.starts
    refine ⟨b, rest, by rw [writeAt], ?_, startsNumber_ne starts (by decide)⟩
    have notSpace (c : UInt8) (other : (Text.isDigitByte c || c == 45) = false) :=
      startsNumber_ne starts other
    simp [isSpace, notSpace 32 (by decide), notSpace 9 (by decide), notSpace 10 (by decide),
      notSpace 13 (by decide)]
  | string value => exact ⟨34, _, rfl, by decide, by decide⟩
  | list items =>
    cases items with
    | nil => exact ⟨91, _, rfl, by decide, by decide⟩
    | cons item items => exact ⟨91, _, rfl, by decide, by decide⟩
  | object fields =>
    cases fields with
    | nil => exact ⟨123, _, rfl, by decide, by decide⟩
    | cons field fields => exact ⟨123, _, rfl, by decide, by decide⟩

/-- What starts with no bracket and no brace is a scalar. -/
theorem readValue_scalar (levels : Nat) {b : UInt8} {rest : Text} (noList : b ≠ 91)
    (noObject : b ≠ 123) :
    readValue levels (b :: rest) = readScalar? (b :: rest) := by
  rw [readValue.eq_def]
  simp [noList, noObject]

/-- Behind an opening bracket that is not closed at once stand items. -/
theorem readValue_list (levels : Nat) {text items : Text} (found : skipSpace text = items)
    (notClosed : items.head? ≠ some 93) :
    readValue (levels + 1) (91 :: text) =
      (readItems (readValue levels) (items.length + 1) items).map fun read =>
      (.list read.1, read.2) := by
  rw [readValue.eq_def]
  simp only [found]
  split
  · exact absurd rfl notClosed
  · rfl

/-- Behind an opening brace that is not closed at once stand fields. -/
theorem readValue_object (levels : Nat) {text fields : Text} (found : skipSpace text = fields)
    (notClosed : fields.head? ≠ some 125) :
    readValue (levels + 1) (123 :: text) =
      (readFields (readValue levels) (fields.length + 1) fields).map fun read =>
      (.object read.1, read.2) := by
  rw [readValue.eq_def]
  simp only [found]
  split
  · exact absurd rfl notClosed
  · rfl

/-- A literal is read as a number. -/
theorem readValue_number (levels : Nat) {literal rest : Text} (number : IsNumber literal)
    (ends : Ends rest) :
    readValue levels (literal ++ rest) = some (.number literal, rest) := by
  have reads := readNumber?_append number ends
  obtain ⟨b, others, rfl, starts⟩ := number.starts
  have other (c : UInt8) (no : (Text.isDigitByte c || c == 45) = false) : b ≠ c :=
    startsNumber_ne starts no
  have noWord (first : UInt8) (word : Text) (differs : b ≠ first) :
      Text.after? (first :: word) (b :: (others ++ rest)) = none := by
    simp [Text.after?, List.isPrefixOf, differs.symm]
  rw [List.cons_append] at reads ⊢
  rw [readValue_scalar levels (other 91 (by decide)) (other 123 (by decide)),
    readScalar?.eq_def]
  split
  · rename_i same
    exact absurd (List.cons.inj same).1 (other 34 (by decide))
  · rw [show Text.ofString "null" = 110 :: [117, 108, 108] from rfl,
      noWord _ _ (other 110 (by decide)),
      show Text.ofString "true" = 116 :: [114, 117, 101] from rfl,
      noWord _ _ (other 116 (by decide)),
      show Text.ofString "false" = 102 :: [97, 108, 115, 101] from rfl,
      noWord _ _ (other 102 (by decide)), reads]
    rfl

section Written

variable {indent : Text} {levels : Nat}

/-- One value reads back, whatever ends it. -/
def ReadsBack (indent : Text) (levels depth : Nat) (value : Json) : Prop :=
  ∀ rest, Ends rest → readValue levels (writeAt .answer indent depth value ++ rest) =
    some (value.repaired, rest)

/-- What follows an item: further items, and the closing bracket. -/
theorem ends_writeItems (indent : Text) (items : List Json) (depth outer : Nat) (rest : Text) :
    Ends (writeItems .answer indent depth items ++
      (lineBreak indent outer ++ 93 :: rest)) := by
  cases items with
  | nil => exact ends_lineBreak outer rest (by decide)
  | cons item items =>
    rintro b ⟨rfl⟩
    decide

/-- What follows a field: further fields, and the closing brace. -/
theorem ends_writeFields (indent : Text) (fields : List (Text × Json)) (depth outer : Nat)
    (rest : Text) :
    Ends (writeFields .answer indent depth fields ++
      (lineBreak indent outer ++ 125 :: rest)) := by
  cases fields with
  | nil => exact ends_lineBreak outer rest (by decide)
  | cons field fields =>
    rintro b ⟨rfl⟩
    decide

/-- Every item takes a byte. -/
theorem length_le_writeItems (indent : Text) (depth : Nat) (items : List Json) :
    items.length ≤ (writeItems .answer indent depth items).length := by
  induction items with
  | nil => exact Nat.le_refl 0
  | cons item items inductionHypothesis =>
    simp only [writeItems, List.length_append, List.length_cons,
      show Text.ofString "," = [44] from rfl]
    omega

/-- Every field takes a byte. -/
theorem length_le_writeFields (indent : Text) (depth : Nat) (fields : List (Text × Json)) :
    fields.length ≤ (writeFields .answer indent depth fields).length := by
  induction fields with
  | nil => exact Nat.le_refl 0
  | cons field fields inductionHypothesis =>
    simp only [writeFields, List.length_append, List.length_cons,
      show Text.ofString "," = [44] from rfl]
    omega

/-- A written string starts with its quote. -/
theorem writeString_append (text rest : Text) :
    writeString .answer text ++ rest =
      34 :: (text.characters.flatMap (writeCharacter .answer) ++ ([34] ++ rest)) := by
  simp [writeString, show Text.ofString "\"" = [34] from rfl]

/-- A written value is found behind blanks. -/
theorem skipSpace_writeAt (indent : Text) {blanks : Text}
    (blank : ∀ b ∈ blanks, isSpace b = true) (depth : Nat)
    {value : Json} (fits : value.Fits levels) (rest : Text) :
    skipSpace (blanks ++ (writeAt .answer indent depth value ++ rest)) =
      writeAt .answer indent depth value ++ rest := by
  obtain ⟨b, others, starts, visible, -⟩ := writeAt_starts indent depth fits
  rw [skipSpace_append blank, starts, List.cons_append, skipSpace_cons visible]

/-- The word `null` reads back. -/
theorem readsBack_null (levels depth : Nat) : ReadsBack indent levels depth .null :=
  fun _ _ => readValue_scalar levels (by decide) (by decide)

/-- The two truth values read back. -/
theorem readsBack_bool (levels depth : Nat) (value : Bool) :
    ReadsBack indent levels depth (.bool value) := by
  cases value with
  | true => exact fun _ _ => readValue_scalar levels (by decide) (by decide)
  | false => exact fun _ _ => readValue_scalar levels (by decide) (by decide)

/-- A number reads back. -/
theorem readsBack_number (depth : Nat) {literal : Text}
    (fits : (Json.number literal).Fits levels) :
    ReadsBack indent levels depth (.number literal) := by
  intro rest ends
  rw [writeAt]
  exact readValue_number levels (by simpa [Fits] using fits) ends

/-- A string reads back repaired. -/
theorem readsBack_string (levels depth : Nat) (value : Text) :
    ReadsBack indent levels depth (.string value) := by
  intro rest _
  have reads := readQuoted?_writeString value rest
  rw [writeAt, writeString_append] at *
  rw [readValue_scalar levels (by decide) (by decide), readScalar?, reads]
  rfl

/-- Behind a name stands a colon, and perhaps one blank before the value. -/
theorem skipSpace_fieldMark (indent : Text) (depth : Nat) {value : Json}
    (fits : value.Fits levels) (rest : Text) :
    ∃ blanks, skipSpace (fieldMark indent ++ (writeAt .answer indent depth value ++ rest)) =
        58 :: (blanks ++ (writeAt .answer indent depth value ++ rest)) ∧
      skipSpace (blanks ++ (writeAt .answer indent depth value ++ rest)) =
        writeAt .answer indent depth value ++ rest := by
  unfold fieldMark
  split
  · exact ⟨[], skipSpace_cons (by decide), skipSpace_writeAt indent (by simp) depth fits rest⟩
  · exact ⟨[32], skipSpace_cons (by decide),
      skipSpace_writeAt indent (by simp [isSpace]) depth fits rest⟩

variable (blank : ∀ b ∈ indent, isSpace b = true)
include blank

/-- A written string is found behind a line break. -/
theorem skipSpace_writeString (depth : Nat) (text rest : Text) :
    skipSpace (lineBreak indent depth ++ (writeString .answer text ++ rest)) =
      writeString .answer text ++ rest := by
  rw [writeString_append]
  exact skipSpace_lineBreak blank depth (by decide)

/-- The items of a list read back one after the other. The fuel is never used up because
it is above the number of items. -/
theorem readItems_written (depth outer : Nat) (rest : Text) (items : List Json)
    (item : Json) (fuel : Nat)
    (enough : items.length < fuel) (fits : ∀ x ∈ item :: items, x.Fits levels)
    (reads : ∀ x ∈ item :: items, ReadsBack indent levels depth x) :
    readItems (readValue levels) fuel (writeAt .answer indent depth item ++
        (writeItems .answer indent depth items ++ (lineBreak indent outer ++ 93 :: rest))) =
      some ((item :: items).map repaired, rest) := by
  induction items generalizing item fuel with
  | nil =>
    obtain ⟨fuel, rfl⟩ := Nat.exists_eq_add_of_lt enough
    have first := reads item List.mem_cons_self _ (ends_writeItems indent [] depth outer rest)
    have close : skipSpace (writeItems .answer indent depth [] ++
        (lineBreak indent outer ++ 93 :: rest)) =
        93 :: rest := skipSpace_lineBreak blank outer (by decide)
    rw [readItems, first]
    simp [close]
  | cons next items inductionHypothesis =>
    obtain ⟨fuel, rfl⟩ := Nat.exists_eq_add_of_lt enough
    have first := reads item List.mem_cons_self _
      (ends_writeItems indent (next :: items) depth outer rest)
    have others := inductionHypothesis next (items.length + 1 + fuel) (by omega)
      (fun x later => fits x (List.mem_cons_of_mem item later))
      (fun x later => reads x (List.mem_cons_of_mem item later))
    have comma : skipSpace (writeItems .answer indent depth (next :: items) ++
        (lineBreak indent outer ++ 93 :: rest)) =
        44 :: (lineBreak indent depth ++ (writeAt .answer indent depth next ++
          (writeItems .answer indent depth items ++
            (lineBreak indent outer ++ 93 :: rest)))) := by
      rw [writeItems, show Text.ofString "," = [44] from rfl]
      simp only [List.append_assoc, List.singleton_append]
      exact skipSpace_cons (by decide)
    have found := skipSpace_writeAt indent (lineBreak_blank blank depth) depth
      (fits next (List.mem_cons_of_mem item List.mem_cons_self))
      (writeItems .answer indent depth items ++ (lineBreak indent outer ++ 93 :: rest))
    rw [List.length_cons, readItems, first]
    simp [comma, found, others]

/-- The fields of an object read back one after the other. -/
theorem readFields_written (depth outer : Nat) (rest : Text) (fields : List (Text × Json))
    (name : Text) (value : Json) (fuel : Nat) (enough : fields.length < fuel)
    (fits : ∀ x ∈ (name, value) :: fields, x.2.Fits levels)
    (reads : ∀ x ∈ (name, value) :: fields, ReadsBack indent levels depth x.2) :
    readFields (readValue levels) fuel (writeString .answer name ++ (fieldMark indent ++
        (writeAt .answer indent depth value ++
          (writeFields .answer indent depth fields ++
          (lineBreak indent outer ++ 125 :: rest))))) =
      some (repairedFields ((name, value) :: fields), rest) := by
  induction fields generalizing name value fuel with
  | nil =>
    obtain ⟨fuel, rfl⟩ := Nat.exists_eq_add_of_lt enough
    have first := reads _ List.mem_cons_self _ (ends_writeFields indent [] depth outer rest)
    obtain ⟨blanks, colon, found⟩ :=
      skipSpace_fieldMark indent depth (fits (name, value) List.mem_cons_self)
      (writeFields .answer indent depth [] ++ (lineBreak indent outer ++ 125 :: rest))
    have close : skipSpace (writeFields .answer indent depth [] ++
        (lineBreak indent outer ++ 125 :: rest)) =
        125 :: rest := skipSpace_lineBreak blank outer (by decide)
    rw [readFields, readQuoted?_writeString]
    simp [colon, found, first, close, repairedFields]
  | cons next fields inductionHypothesis =>
    obtain ⟨fuel, rfl⟩ := Nat.exists_eq_add_of_lt enough
    have first := reads _ List.mem_cons_self _
      (ends_writeFields indent (next :: fields) depth outer rest)
    obtain ⟨blanks, colon, found⟩ :=
      skipSpace_fieldMark indent depth (fits (name, value) List.mem_cons_self)
      (writeFields .answer indent depth (next :: fields) ++
        (lineBreak indent outer ++ 125 :: rest))
    have others := inductionHypothesis next.1 next.2 (fields.length + 1 + fuel) (by omega)
      (fun x later => fits x (List.mem_cons_of_mem _ later))
      (fun x later => reads x (List.mem_cons_of_mem _ later))
    have comma : skipSpace (writeFields .answer indent depth (next :: fields) ++
        (lineBreak indent outer ++ 125 :: rest)) =
        44 :: (lineBreak indent depth ++ (writeString .answer next.1 ++ (fieldMark indent ++
          (writeAt .answer indent depth next.2 ++
            (writeFields .answer indent depth fields ++
              (lineBreak indent outer ++ 125 :: rest)))))) := by
      rw [writeFields, show Text.ofString "," = [44] from rfl]
      simp only [List.append_assoc, List.singleton_append]
      exact skipSpace_cons (by decide)
    rw [List.length_cons, readFields, readQuoted?_writeString]
    simp [colon, found, first, comma, skipSpace_writeString blank, others, repairedFields]

/-- A list reads back when its items do. -/
theorem readsBack_list (depth : Nat) {items : List Json} (fits : ∀ x ∈ items, x.Fits levels)
    (reads : ∀ x ∈ items, ReadsBack indent levels (depth + 1) x) :
    ReadsBack indent (levels + 1) depth (.list items) := by
  intro rest _
  cases items with
  | nil => rfl
  | cons item items =>
    have opened : writeAt .answer indent depth (.list (item :: items)) ++ rest =
        91 :: (lineBreak indent (depth + 1) ++ (writeAt .answer indent (depth + 1) item ++
          (writeItems .answer indent (depth + 1) items ++
            (lineBreak indent depth ++ 93 :: rest)))) := by
      simp [writeAt, show Text.ofString "[" = [91] from rfl, show Text.ofString "]" =
        [93] from rfl]
    have found := skipSpace_writeAt indent (lineBreak_blank blank (depth + 1)) (depth + 1)
      (fits item List.mem_cons_self)
      (writeItems .answer indent (depth + 1) items ++ (lineBreak indent depth ++ 93 :: rest))
    have notClosed : (writeAt .answer indent (depth + 1) item ++
        (writeItems .answer indent (depth + 1) items ++
        (lineBreak indent depth ++ 93 :: rest))).head? ≠ some 93 := by
      obtain ⟨b, others, starts, -, noBracket⟩ :=
        writeAt_starts indent (depth + 1) (fits item List.mem_cons_self)
      rw [starts]
      simpa using noBracket
    rw [opened, readValue_list levels found notClosed,
      readItems_written blank (depth + 1) depth rest items item _ ?_ fits reads]
    · simp [repaired]
    · have bytes := length_le_writeItems indent (depth + 1) items
      simp only [List.length_append]
      omega

/-- An object reads back when the values of its fields do. -/
theorem readsBack_object (depth : Nat) {fields : List (Text × Json)}
    (fits : ∀ x ∈ fields, x.2.Fits levels)
    (reads : ∀ x ∈ fields, ReadsBack indent levels (depth + 1) x.2) :
    ReadsBack indent (levels + 1) depth (.object fields) := by
  intro rest _
  cases fields with
  | nil => rfl
  | cons field fields =>
    have opened : writeAt .answer indent depth (.object (field :: fields)) ++ rest =
        123 :: (lineBreak indent (depth + 1) ++
          (writeString .answer field.1 ++ (fieldMark indent ++
          (writeAt .answer indent (depth + 1) field.2 ++
            (writeFields .answer indent (depth + 1) fields ++
              (lineBreak indent depth ++ 125 :: rest)))))) := by
      simp [writeAt, show Text.ofString "\x7b" = [123] from rfl,
        show Text.ofString "\x7d" = [125] from rfl]
    have found := skipSpace_writeString blank (depth + 1) field.1 (fieldMark indent ++
      (writeAt .answer indent (depth + 1) field.2 ++
        (writeFields .answer indent (depth + 1) fields ++
          (lineBreak indent depth ++ 125 :: rest))))
    have notClosed : (writeString .answer field.1 ++ (fieldMark indent ++
          (writeAt .answer indent (depth + 1) field.2 ++
            (writeFields .answer indent (depth + 1) fields ++
              (lineBreak indent depth ++ 125 :: rest))))).head? ≠
        some 125 := by
      rw [writeString_append]
      exact (by decide : some (34 : UInt8) ≠ some 125)
    rw [opened, readValue_object levels found notClosed,
      readFields_written blank (depth + 1) depth rest fields field.1 field.2 _ ?_ fits reads]
    · simp [repaired]
    · have bytes := length_le_writeFields indent (depth + 1) fields
      simp only [List.length_append]
      omega

/-- Every value reads back with its strings repaired. The induction is on the levels
that the reader may go down; the items of a list and the fields of an object use one
level less. -/
theorem readsBack {value : Json} (fits : value.Fits levels) (depth : Nat) :
    ReadsBack indent levels depth value := by
  induction levels generalizing value depth with
  | zero =>
    cases value with
    | list items => exact fits.elim
    | object fields => exact fits.elim
    | null => exact readsBack_null 0 depth
    | bool value => exact readsBack_bool 0 depth value
    | number literal => exact readsBack_number depth fits
    | string value => exact readsBack_string 0 depth value
  | succ levels inductionHypothesis =>
    cases value with
    | list items =>
      exact readsBack_list blank depth fits fun item member =>
        inductionHypothesis (fits item member) (depth + 1)
    | object fields =>
      exact readsBack_object blank depth fits fun field member =>
        inductionHypothesis (fits field member) (depth + 1)
    | null => exact readsBack_null _ depth
    | bool value => exact readsBack_bool _ depth value
    | number literal => exact readsBack_number depth fits
    | string value => exact readsBack_string _ depth value

/-- A written value reads back with its strings repaired. -/
theorem read?_write {value : Json} (fits : value.Fits depthLimit) :
    read? (write indent value) = some value.repaired := by
  have reads := readsBack blank fits 0 [] (by simp [Ends])
  have found := skipSpace_writeAt indent (show ∀ b ∈ ([] : Text), isSpace b = true by simp)
    0 fits []
  rw [List.append_nil] at reads found
  rw [List.nil_append] at found
  rw [read?, write, found, reads]
  rfl

end Written

end Persona.Json
