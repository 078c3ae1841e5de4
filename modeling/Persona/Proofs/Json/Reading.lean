import Mathlib.Data.List.TakeWhile
import Persona.Json.Reader
import Persona.Number.Decimal
import Persona.Proofs.Text.Utf8

/-!
# What can be read from JSON

Whatever a text holds, the strings of the value it is read to are decodable, because the
reader repairs them; and every number that can be read from a literal of the value is
finite, because no literal spells NaN or an infinity and a number too large is refused.
-/

namespace Persona

/-- A numeral that is no word for NaN or an infinity is read as a finite number or
not at all. -/
theorem Binary64.read?_finite {text : Text} {x : Binary64}
    (numeral : text ≠ "NaN" ∧ text ≠ "+Inf" ∧ text ≠ "-Inf")
    (read : Binary64.read? text = some x) :
    x.isFinite = true := by
  unfold Binary64.read? at read
  rw [if_neg numeral.1, if_neg numeral.2.1, if_neg numeral.2.2] at read
  -- The three ways to take off a sign end alike.
  split at read
  all_goals
    dsimp only at read
    obtain ⟨-, read⟩ := Option.ite_none_right_eq_some.mp read
    split at read
    · obtain ⟨finite, same⟩ := Option.ite_none_right_eq_some.mp read
      obtain rfl := Option.some.inj same
      exact finite
    · cases read

namespace Json

/-- The strings in the value are decodable, and its numbers are finite as far as they
can be read. -/
inductive Valid : Json → Prop
  | null : Valid .null
  | bool (value : Bool) : Valid (.bool value)
  | number {literal : Text} (finite : ∀ x, Binary64.read? literal = some x →
      x.isFinite = true) :
      Valid (.number literal)
  | string {value : Text} (decodable : value.isUtf8 = true) : Valid (.string value)
  | list {items : List Json} (all : ∀ item ∈ items, Valid item) : Valid (.list items)
  | object {fields : List (Text × Json)} (all : ∀ field ∈ fields, Valid field.2) :
      Valid (.object fields)

/-- Among digits that are read is one. -/
theorem readDigits?_digit {text digits rest : Text}
    (read : readDigits? text = some (digits, rest)) :
    ∃ b ∈ digits, Text.isDigitByte b = true := by
  unfold readDigits? at read
  dsimp only at read
  split at read
  · cases read
  rename_i someDigit
  cases read
  obtain ⟨b, more, same⟩ := List.exists_cons_of_ne_nil (mt List.isEmpty_iff.mpr someDigit)
  have first : b ∈ text.takeWhile Text.isDigitByte := by simp [same]
  exact ⟨b, first, List.mem_takeWhile_imp first⟩

/-- In an integer part that is read is a digit. -/
theorem readInteger?_digit {text integer rest : Text}
    (read : readInteger? text = some (integer, rest)) :
    ∃ b ∈ integer, Text.isDigitByte b = true := by
  unfold readInteger? at read
  split at read
  · cases read
    exact ⟨48, List.mem_singleton_self 48, by decide⟩
  · exact readDigits?_digit read

/-- In a literal that is read is a digit. -/
theorem readNumber?_digit {text literal rest : Text}
    (read : readNumber? text = some (literal, rest)) :
    ∃ b ∈ literal, Text.isDigitByte b = true := by
  unfold readNumber? at read
  split at read
  obtain ⟨⟨integer, afterInteger⟩, integerRead, read⟩ := Option.bind_eq_some_iff.mp read
  obtain ⟨⟨fraction, afterFraction⟩, -, read⟩ := Option.bind_eq_some_iff.mp read
  obtain ⟨⟨exponent, afterExponent⟩, -, read⟩ := Option.bind_eq_some_iff.mp read
  cases read
  obtain ⟨b, member, digit⟩ := readInteger?_digit integerRead
  exact ⟨b, by simp [member], digit⟩

/-- Whatever number is read from a literal is finite: the words for the others
have no digits. -/
theorem readNumber?_finite {text literal rest : Text}
    (read : readNumber? text = some (literal, rest))
    (x : Binary64) (meant : Binary64.read? literal = some x) : x.isFinite = true := by
  obtain ⟨b, member, digit⟩ := readNumber?_digit read
  have noWord {word : Text} (digitless : ∀ c ∈ word, Text.isDigitByte c = false) :
      literal ≠ word := by
    rintro rfl
    rw [digitless b member] at digit
    cases digit
  exact Binary64.read?_finite ⟨noWord (by decide +kernel), noWord (by decide +kernel),
    noWord (by decide +kernel)⟩ meant

/-- A string that is read is decodable. -/
theorem readQuoted?_decodable {text content rest : Text}
    (read : readQuoted? text = some (content, rest)) :
    content.isUtf8 = true := by
  unfold readQuoted? at read
  split at read
  · obtain ⟨⟨pieces, after⟩, -, same⟩ := Option.map_eq_some_iff.mp read
    cases same
    rw [Text.isUtf8_iff]
    exact Text.toUtf8_toUtf8 _
  · cases read

/-- A scalar that is read is valid. -/
theorem readScalar?_valid {text rest : Text} {json : Json}
    (read : readScalar? text = some (json, rest)) :
    json.Valid := by
  unfold readScalar? at read
  split at read
  · obtain ⟨⟨content, after⟩, quoted, same⟩ := Option.map_eq_some_iff.mp read
    cases same
    exact .string (readQuoted?_decodable quoted)
  · split at read
    · cases read
      exact .null
    · cases read
      exact .bool true
    · cases read
      exact .bool false
    · obtain ⟨⟨literal, after⟩, number, same⟩ := Option.map_eq_some_iff.mp read
      cases same
      exact .number (readNumber?_finite number)

section Parts

variable {value : Text → Option (Json × Text)}

/-- Items are valid where each of them is. -/
theorem readItems_valid
    (valid : ∀ text json rest, value text = some (json, rest) → json.Valid) {fuel : Nat}
    {text rest : Text} {items : List Json}
    (read : readItems value fuel text = some (items, rest)) :
    ∀ item ∈ items, item.Valid := by
  induction fuel generalizing text items rest with
  | zero => cases read
  | succ fuel inductionHypothesis =>
    obtain ⟨⟨item, afterItem⟩, first, read⟩ := Option.bind_eq_some_iff.mp read
    have firstValid := valid _ _ _ first
    dsimp only at read
    split at read
    · obtain ⟨⟨others, left⟩, more, read⟩ := Option.bind_eq_some_iff.mp read
      cases read
      exact List.forall_mem_cons.mpr ⟨firstValid, inductionHypothesis more⟩
    · cases read
      exact List.forall_mem_singleton.mpr firstValid
    · cases read

/-- Fields are valid where the value of each of them is. -/
theorem readFields_valid
    (valid : ∀ text json rest, value text = some (json, rest) → json.Valid) {fuel : Nat}
    {text rest : Text} {fields : List (Text × Json)}
    (read : readFields value fuel text = some (fields, rest)) :
    ∀ field ∈ fields, field.2.Valid := by
  induction fuel generalizing text fields rest with
  | zero => cases read
  | succ fuel inductionHypothesis =>
    obtain ⟨⟨name, afterName⟩, -, read⟩ := Option.bind_eq_some_iff.mp read
    dsimp only at read
    split at read
    · obtain ⟨⟨item, afterItem⟩, first, read⟩ := Option.bind_eq_some_iff.mp read
      have firstValid := valid _ _ _ first
      dsimp only at read
      split at read
      · obtain ⟨⟨others, left⟩, more, read⟩ := Option.bind_eq_some_iff.mp read
        cases read
        exact List.forall_mem_cons.mpr ⟨firstValid, inductionHypothesis more⟩
      · cases read
        exact List.forall_mem_singleton.mpr firstValid
      · cases read
    · cases read

end Parts

/-- Whatever is read at the head of a text is valid, however deep values may be nested. -/
theorem readValue_valid {depth : Nat} {text rest : Text} {json : Json}
    (read : readValue depth text = some (json, rest)) : json.Valid := by
  induction depth generalizing text json rest with
  | zero =>
    rw [readValue.eq_def] at read
    dsimp only at read
    split at read
    · cases read
    · cases read
    · exact readScalar?_valid read
  | succ depth inductionHypothesis =>
    rw [readValue.eq_def] at read
    dsimp only at read
    split at read
    · split at read
      · cases read
        exact .list (List.forall_mem_nil _)
      · obtain ⟨⟨items, after⟩, itemsRead, same⟩ := Option.map_eq_some_iff.mp read
        cases same
        exact .list (readItems_valid (fun _ _ _ => inductionHypothesis) itemsRead)
    · split at read
      · cases read
        exact .object (List.forall_mem_nil _)
      · obtain ⟨⟨fields, after⟩, fieldsRead, same⟩ := Option.map_eq_some_iff.mp read
        cases same
        exact .object (readFields_valid (fun _ _ _ => inductionHypothesis) fieldsRead)
    · exact readScalar?_valid read

/-- Whatever a text is read to is valid. -/
theorem read?_valid {text : Text} {json : Json} (read : read? text = some json) :
    json.Valid := by
  unfold read? at read
  split at read
  · rename_i value rest found
    split at read
    · cases read
      exact readValue_valid found
    · cases read
  · cases read

end Json

end Persona
