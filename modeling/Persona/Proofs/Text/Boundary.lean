import Persona.Proofs.Text.Characters

/-!
# Where a text may be cut

How a byte is read depends on up to three bytes behind it, so the characters of a text
need not be those of its parts. They are where the text is cut between two of its
characters: a sequence that is complete is read alike with less behind it, and a byte
that starts none does not start one with less. A text may also be continued by anything
where it ends with an ASCII character.
-/

namespace Persona

namespace Character

/-- A well-formed sequence is read alike with more behind it. -/
theorem Sequence.read_more {first : UInt8} {rest : Text}
    (formed : Sequence (read first rest)) (more : Text) :
    read first (rest ++ more) = read first rest := by
  obtain ⟨head, tail, spelled, reads⟩ := formed.read_bytes
  obtain ⟨left, split⟩ := read_isPrefix first rest
  rw [spelled, List.cons_append] at split
  obtain ⟨rfl, rfl⟩ := List.cons.inj split
  rw [List.append_assoc]
  exact reads (left ++ more)

/-- A character is read alike with less behind it, as long as its own bytes are there. -/
theorem read_less {first : UInt8} {rest more : Text}
    (within : (read first (rest ++ more)).width ≤ rest.length + 1) :
    read first rest = read first (rest ++ more) := by
  rcases read_cases first (rest ++ more) with ⟨lone, -⟩ | formed
  · rcases read_cases first rest with ⟨alone, -⟩ | formed
    · rw [alone, lone]
    · exact (formed.read_more more).symm
  · obtain ⟨head, tail, spelled, reads⟩ := formed.read_bytes
    have inside : (read first (rest ++ more)).bytes <+: first :: rest := by
      apply List.prefix_of_prefix_length_le (read_isPrefix first (rest ++ more))
      · exact List.prefix_append (first :: rest) more
      · exact within
    obtain ⟨left, split⟩ := inside
    rw [spelled, List.cons_append] at split
    obtain ⟨rfl, rfl⟩ := List.cons.inj split
    exact reads left

end Character

namespace Text

open Character (read_isPrefix read_less)

/-- Both parts of a text that is cut between two of its characters are read
as they were. -/
theorem characters_cut {text : Text} {before after : List Character}
    (split : text.characters = before ++ after) :
    text = ofCharacters before ++ ofCharacters after ∧
    characters (ofCharacters before) = before ∧
      characters (ofCharacters after) = after := by
  have joined : text = ofCharacters before ++ ofCharacters after := by
    rw [← ofCharacters_characters text, split, ofCharacters, List.flatMap_append]
    rfl
  refine ⟨joined, ?_⟩
  induction text using characterInduction generalizing before with
  | nil =>
    obtain ⟨rfl, rfl⟩ := List.append_eq_nil_iff.mp split.symm
    exact ⟨rfl, rfl⟩
  | cons first rest inductionHypothesis =>
    cases before with
    | nil =>
      rw [List.nil_append] at split
      exact ⟨rfl, by rw [← split, ofCharacters_characters]⟩
    | cons c before =>
      rw [characters_cons, List.cons_append] at split
      obtain ⟨rfl, later⟩ := List.cons.inj split
      have joinedLater : (first :: rest).drop (Character.read first rest).width =
          ofCharacters before ++ ofCharacters after := by
        rw [← ofCharacters_characters (List.drop _ _), later, ofCharacters,
          List.flatMap_append]
        rfl
      obtain ⟨readBefore, readAfter⟩ := inductionHypothesis later joinedLater
      refine ⟨?_, readAfter⟩
      obtain ⟨left, bytes⟩ := read_isPrefix first rest
      obtain ⟨tail, spelled⟩ : ∃ tail, (Character.read first rest).bytes = first :: tail := by
        cases spelled : (Character.read first rest).bytes with
        | nil =>
          exact absurd (Character.read_width_pos first rest)
            (by simp [Character.width, spelled])
        | cons b tail =>
          rw [spelled, List.cons_append] at bytes
          exact ⟨tail, by rw [(List.cons.inj bytes).1]⟩
      have width : (Character.read first rest).width = tail.length + 1 := by
        simp [Character.width, spelled]
      have whole : rest = tail ++ ofCharacters before ++ ofCharacters after := by
        rw [← bytes, spelled, width] at joinedLater
        simp only [List.cons_append, List.drop_succ_cons, List.drop_left] at joinedLater
        rw [spelled, List.cons_append] at bytes
        rw [← (List.cons.inj bytes).2, joinedLater, List.append_assoc]
      have same : Character.read first (tail ++ ofCharacters before) =
          Character.read first rest := by
        rw [whole] at width ⊢
        exact read_less (by rw [width, List.length_append]; omega)
      have ownBytes : ofCharacters (Character.read first rest :: before) =
          first :: (tail ++ ofCharacters before) := by
        rw [ofCharacters, List.flatMap_cons, spelled, List.cons_append]
        rfl
      rw [ownBytes, characters_cons, same, width, List.drop_succ_cons, List.drop_left,
        readBefore]

/-- A text that ends with an ASCII byte may be continued by anything. -/
theorem characters_append_of_last {text : Text} (boundary : ∀ b ∈ text.getLast?, b < 0x80)
    (more : Text) :
    characters (text ++ more) = text.characters ++ more.characters := by
  rcases List.eq_nil_or_concat text with rfl | ⟨start, last, rfl⟩
  · rfl
  · have small : last < 0x80 := boundary last (by simp)
    have startsSmall (rest : Text) : ∀ b ∈ (last :: rest).head?, b < 0x80 := by
      rintro b ⟨rfl⟩
      exact small
    rw [List.concat_eq_append, List.append_assoc, List.singleton_append,
      characters_append start _ (startsSmall more),
      characters_append start _ (startsSmall []), characters_ascii last more small,
      characters_ascii last [] small]
    simp [characters, charactersAfter]

/-- A text that ends with an ASCII character may be continued by anything. -/
theorem characters_append_of_code {text : Text}
    (boundary : ∀ c ∈ text.characters.getLast?, c.code < 0x80)
    (more : Text) : characters (text ++ more) = text.characters ++ more.characters := by
  apply characters_append_of_last
  rcases List.eq_nil_or_concat text.characters with none | ⟨start, last, split⟩
  · rw [← ofCharacters_characters text, none]
    simp [ofCharacters]
  · rw [List.concat_eq_append] at split
    have small : last.code < 0x80 := boundary last (by simp [split])
    have member : last ∈ text.characters := by simp [split]
    obtain ⟨b, -, ascii, rfl⟩ := ascii_of_mem_characters member small
    rw [← ofCharacters_characters text, split]
    simpa [ofCharacters] using ascii

end Text

end Persona
