import Persona.Proofs.Text.Characters

/-!
# Repairing a text

Undecodable bytes are replaced by an encoded U+FFFD and nothing else changes. The
repaired text has the same code points, so whatever looks only at code points sees
no difference, and repairing it again changes nothing.

A piece of a larger text is repaired on its own when no character reaches over its
end; pieces of this kind may be put together.
-/

namespace Persona

namespace Character

/-- An undecodable byte as the encoded U+FFFD it stands for. -/
def repaired (c : Character) : Character :=
  if c.isUndecodable then ⟨replacement, encode replacement⟩ else c

/-- U+FFFD is encoded by a well-formed sequence. -/
theorem sequence_replacement : Sequence ⟨replacement, encode replacement⟩ := by
  have formed := Sequence.three 0xEF 0xBF 0xBD (by decide) (by decide) (by decide) (by decide)
  have same : (⟨((0xEF : UInt8).toNat % 16 * 64 + payload 0xBF) * 64 + payload 0xBD,
      [0xEF, 0xBF, 0xBD]⟩ : Character) =
      ⟨replacement, encode replacement⟩ := by decide
  rwa [same] at formed

/-- Repairing keeps the code point. -/
theorem repaired_code (c : Character) : c.repaired.code = c.code := by
  unfold repaired
  split
  · rename_i lone
    simp only [isUndecodable, Bool.and_eq_true, beq_iff_eq] at lone
    exact lone.1.symm
  · rfl

/-- A well-formed sequence needs no repair. -/
theorem Sequence.repaired {c : Character} (formed : Sequence c) : c.repaired = c := by
  rw [Character.repaired, formed.decodable]
  rfl

end Character

namespace Text

open Character (Sequence)

/-- Every character of a text is well-formed once it is repaired. -/
theorem repaired_sequence {text : Text} {c : Character} (member : c ∈ text.characters) :
    Sequence c.repaired := by
  rcases mem_characters member with ⟨b, -, rfl⟩ | formed
  · exact Character.sequence_replacement
  · rw [formed.repaired]
    exact formed

/-- A repaired text is made of the repaired characters. -/
theorem toUtf8_eq (text : Text) :
    text.toUtf8 = ofCharacters (text.characters.map Character.repaired) := by
  unfold toUtf8 ofCharacters
  rw [List.flatMap_map]
  congr 1
  funext c
  unfold Character.repaired
  split <;> rfl

/-- The characters of a repaired text, in front of anything. -/
theorem characters_toUtf8_append (text more : Text) :
    characters (text.toUtf8 ++ more) = text.characters.map Character.repaired ++
      more.characters := by
  rw [toUtf8_eq]
  refine characters_ofCharacters _ more fun c member => ?_
  obtain ⟨d, inText, rfl⟩ := List.mem_map.mp member
  exact repaired_sequence inText

/-- The characters of a repaired text. -/
theorem characters_toUtf8 (text : Text) :
    text.toUtf8.characters = text.characters.map Character.repaired := by
  have whole := characters_toUtf8_append text []
  rw [List.append_nil] at whole
  rw [whole]
  exact List.append_nil _

/-- Repairing twice is repairing once. -/
theorem toUtf8_toUtf8 (text : Text) : text.toUtf8.toUtf8 = text.toUtf8 := by
  rw [toUtf8_eq text.toUtf8, characters_toUtf8, toUtf8_eq, List.map_map]
  congr 1
  refine List.map_congr_left fun c member => ?_
  exact (repaired_sequence member).repaired

/-- A text is valid exactly when repairing does not change it. -/
theorem isUtf8_iff (text : Text) : text.isUtf8 = true ↔ text.toUtf8 = text := by
  have decodable (c : Character) (member : c ∈ text.characters) :
      c.isUndecodable = false ↔ c.repaired = c := by
    rcases mem_characters member with ⟨b, -, rfl⟩ | formed
    · simp [Character.isUndecodable, Character.repaired, Character.undecodable,
        Character.encode, Character.replacement]
    · simp [formed.decodable, formed.repaired]
  unfold isUtf8
  rw [List.all_eq_true]
  constructor
  · intro valid
    have unchanged : text.characters.map Character.repaired = text.characters := by
      refine (List.map_congr_left fun c member => ?_).trans (List.map_id _)
      exact (decodable c member).mp (by simpa using valid c member)
    rw [toUtf8_eq, unchanged, ofCharacters_characters]
  · intro same c member
    have unchanged : text.characters.map Character.repaired = text.characters := by
      rw [← characters_toUtf8, same]
    have fixed : c.repaired = c := by
      obtain ⟨i, bound, rfl⟩ := List.mem_iff_getElem.mp member
      have entries := congrArg (fun l => l[i]?) unchanged
      simpa [bound] using entries
    simpa using (decodable c member).mpr fixed

/-- The characters of a valid text are well-formed. -/
theorem sequence_of_isUtf8 {text : Text} (valid : text.isUtf8 = true) {c : Character}
    (member : c ∈ text.characters) : Sequence c := by
  have decodable : (!c.isUndecodable) = true := List.all_eq_true.mp valid c member
  rcases mem_characters member with ⟨b, -, rfl⟩ | formed
  · cases decodable
  · exact formed

/-- Well-formed characters make a valid text. -/
theorem isUtf8_ofCharacters {cs : List Character} (formed : ∀ c ∈ cs, Sequence c) :
    (ofCharacters cs).isUtf8 = true := by
  have read : (ofCharacters cs).characters = cs := by
    simpa [characters, charactersAfter] using characters_ofCharacters cs [] formed
  rw [isUtf8, read, List.all_eq_true]
  intro c member
  rw [(formed c member).decodable]
  rfl

/-- The piece is repaired on its own, whatever follows it. -/
def Repairs (piece repaired : Text) : Prop :=
  ∀ rest, (piece ++ rest).toUtf8 = repaired ++ rest.toUtf8

namespace Repairs

/-- A piece that is repaired on its own is repaired at the end of a text. -/
theorem toUtf8_eq {piece repaired : Text} (repairs : Repairs piece repaired) :
    piece.toUtf8 = repaired := by
  have whole := repairs []
  simpa [toUtf8, characters, charactersAfter] using whole

/-- Pieces may be put together. -/
theorem append {first second first' second' : Text} (repairs : Repairs first first')
    (following : Repairs second second') : Repairs (first ++ second) (first' ++ second') := by
  intro rest
  rw [List.append_assoc, repairs, following, List.append_assoc]

/-- A piece whose characters are its own is repaired character by character. -/
theorem of_characters {piece : Text}
    (apart : ∀ rest, characters (piece ++ rest) = piece.characters ++ rest.characters) :
    Repairs piece piece.toUtf8 := by
  intro rest
  rw [Text.toUtf8_eq, apart, Text.toUtf8_eq, Text.toUtf8_eq, List.map_append, ofCharacters,
    ofCharacters, List.flatMap_append]
  rfl

/-- ASCII needs no repair. -/
theorem of_ascii {piece : Text} (ascii : ∀ b ∈ piece, b < 0x80) : Repairs piece piece := by
  have repairs : Repairs piece piece.toUtf8 := of_characters fun rest => by
    rw [characters_append_ascii ascii, characters_of_ascii ascii]
  have same : piece.toUtf8 = piece := by
    rw [Text.toUtf8_eq, characters_of_ascii ascii, List.map_map]
    have unchanged : piece.map (Character.repaired ∘ fun b => ⟨b.toNat, [b]⟩) =
        piece.map fun b => (⟨b.toNat, [b]⟩ : Character) :=
      List.map_congr_left fun b member => (Sequence.one b (ascii b member)).repaired
    rw [unchanged, ← characters_of_ascii ascii, ofCharacters_characters]
  rwa [same] at repairs

/-- Any text may stand in front of an ASCII piece. -/
theorem before_ascii (text : Text) {piece : Text} (ascii : ∀ b ∈ piece, b < 0x80)
    (some : piece ≠ []) :
    Repairs (text ++ piece) (text.toUtf8 ++ piece) := by
  intro rest
  have boundary : ∀ b ∈ (piece ++ rest).head?, b < 0x80 := by
    obtain ⟨first, others, rfl⟩ := List.exists_cons_of_ne_nil some
    rintro b ⟨rfl⟩
    exact ascii first List.mem_cons_self
  have repairs : (text ++ (piece ++ rest)).toUtf8 = text.toUtf8 ++ (piece ++ rest).toUtf8 := by
    rw [Text.toUtf8_eq, characters_append text _ boundary, Text.toUtf8_eq, Text.toUtf8_eq,
      List.map_append, ofCharacters, ofCharacters, List.flatMap_append]
    rfl
  rw [List.append_assoc, repairs, of_ascii ascii, List.append_assoc]

end Repairs

end Text

end Persona
