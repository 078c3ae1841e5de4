import Persona.Proofs.Token.Lossless

/-!
# Space between tokens

Blanks and comments may be put in front of a text and behind each of its tokens, and it
is scanned to the same tokens, as long as what is put in starts with a blank. The blank
matters: a slash behind a slash opens a comment.

A token is read again because no token runs on into a blank, and its characters are the
same whatever bytes follow: strings end with an ASCII quote, and in all other tokens
there are only characters that are well-formed.
-/

namespace Persona.Token

open Character (isSeparator)
open Text (ofCharacters)

/-- Blanks and comments that start with a blank, or nothing. -/
structure Space (text : Text) : Prop where
  filler : Filler False text.characters
  blank : ∀ c ∈ text.characters.head?, isSeparator c.code = true

/-- The text from `offset` on, with something put in behind each of these tokens. -/
def spaceOut (text : Text) (space : Token → Text) : (offset : Nat) → List Token → Text
  | offset, [] => text.drop offset
  | offset, t :: others =>
    text.extract offset t.stop ++ space t ++ spaceOut text space t.stop others

/-- Outside strings there are no characters that could not be decoded. -/
theorem Lexed.decodable {first : Character} {rest taken left : List Character} {kind : Kind}
    (lexed : Lexed first rest kind taken left) (noString : kind ≠ .string) :
    ∀ c ∈ taken, c.code ≠ Character.replacement := by
  have digit {code : Nat} (isDigit : Character.isAsciiDigit code = true) :
      code ≠ Character.replacement := by
    rintro rfl
    cases isDigit
  have letter {code : Nat} (continues : continuesName code = true) :
      code ≠ Character.replacement := by
    rintro rfl
    revert continues
    decide +kernel
  cases lexed with
  | biArrow a b left less dash point => simp [less, dash, point, Character.replacement]
  | double next left kind notLess symbol =>
    have listed := mem_of_lookup symbol
    simp only [List.mem_cons, List.not_mem_nil, or_false, Prod.mk.injEq] at listed
    simp only [List.mem_cons, List.not_mem_nil, or_false, forall_eq_or_imp, forall_eq,
      Character.replacement]
    omega
  | single left kind notLess symbol apart =>
    have listed := mem_of_lookup symbol
    simp only [List.mem_cons, List.not_mem_nil, or_false, Prod.mk.injEq] at listed
    simp only [List.mem_cons, List.not_mem_nil, or_false, forall_eq, Character.replacement]
    omega
  | string content close left quote closes inside => exact absurd rfl noString
  | whole digits left isDigit allDigits stops =>
    exact List.forall_mem_cons.mpr ⟨digit isDigit, fun c member => digit (allDigits c member)⟩
  | fraction digits point fraction left isDigit isPoint allDigits fractionDigits someFraction
      stops =>
    intro c member
    simp only [List.cons_append, List.mem_cons, List.mem_append] at member
    rcases member with rfl | whole | rfl | later
    · exact digit isDigit
    · exact digit (allDigits c whole)
    · simp [isPoint, Character.replacement]
    · exact digit (fractionDigits c later)
  | word run left isLetter within stops =>
    exact List.forall_mem_cons.mpr
      ⟨letter (by simp [continuesName, isLetter]), fun c member => letter (within c member)⟩

/-- The characters of a token are read back whatever follows them. -/
theorem Lexed.characters_append {first : Character} {rest taken left : List Character}
    {kind : Kind} (lexed : Lexed first rest kind taken left)
    (readBack : (ofCharacters taken).characters = taken) (more : Text) :
    Text.characters (ofCharacters taken ++ more) = taken ++ more.characters := by
  by_cases isString : kind = .string
  · subst isString
    obtain ⟨content, close, rfl, -, closes, -⟩ := lexed.string_cases
    have boundary :
        ∀ c ∈ (Text.characters (ofCharacters (first :: content ++ [close]))).getLast?,
          c.code < 0x80 := by
      rw [readBack]
      intro c last
      rw [List.getLast?_concat] at last
      obtain rfl : close = c := Option.some.inj last
      omega
    rw [Text.characters_append_of_code boundary, readBack]
  · apply Text.characters_ofCharacters
    intro c member
    have inText := member
    rw [← readBack] at inText
    rcases Text.mem_characters inText with ⟨b, -, rfl⟩ | formed
    · exact absurd rfl (lexed.decodable isString _ member)
    · exact formed

/-- Filler that ends its comments may be put in front of any text. -/
theorem characters_filler {text : Text} (filler : Filler False text.characters) (more : Text) :
    Text.characters (text ++ more) = text.characters ++ more.characters :=
  Text.characters_append_of_code filler.endsAscii more

/-- Space in front of the parts and behind each token changes no token. -/
theorem Parts.spaced {text : Text} {space : Token → Text} {offset : Nat}
    {cs : List Character} {tokens : List Token}
    {last : Token} (parts : Parts offset cs tokens last) (holds : Holds text offset cs)
    (spaces : ∀ t ∈ tokens, Space (space t)) {front : Text}
    (frontFiller : Filler False front.characters) (spacedOffset : Nat) :
    (front ++ spaceOut text space offset tokens).characters.head? =
      (front.characters ++ cs).head? ∧
      ∃ spaced spacedLast,
        Parts spacedOffset (front ++ spaceOut text space offset tokens).characters spaced
        spacedLast ∧
        spaced.map Token.spelling = tokens.map Token.spelling ∧
        spacedLast.spelling = last.spelling := by
  induction parts generalizing front spacedOffset with
  | @done offset stop gap filler stops =>
    have sameCharacters : Text.characters (front ++ spaceOut text space offset []) =
        front.characters ++ gap := by
      rw [characters_filler frontFiller, spaceOut, holds.bytes, holds.readBack]
    rw [sameCharacters]
    constructor
    · rfl
    · exact ⟨[], _, .done (frontFiller.append filler) rfl, rfl, rfl⟩
  | @token offset start stop gap tail left first kind others last filler starts visible read
      apart stops rest
      inductionHypothesis =>
    have sameCs : gap ++ first :: (tail ++ left) = gap ++ first :: tail ++ left := by simp
    rw [sameCs] at holds
    obtain ⟨bytes, readBack, behind⟩ := holds.take
    obtain ⟨-, gapReads, tokenReads⟩ := Text.characters_cut readBack
    have split : ofCharacters (gap ++ first :: tail) =
        ofCharacters gap ++ ofCharacters (first :: tail) := by
      simp [ofCharacters]
    have isStop : offset + (ofCharacters (gap ++ first :: tail)).length = stop := by
      rw [split, List.length_append]
      omega
    rw [isStop] at bytes behind
    obtain ⟨tokenSpace, otherSpaces⟩ := List.forall_mem_cons.mp spaces
    obtain ⟨sameHead, spaced, spacedLast, spacedParts, sameOthers, sameLast⟩ :=
      inductionHypothesis behind otherSpaces
      tokenSpace.filler (spacedOffset + (ofCharacters (front.characters ++ gap)).length +
        (ofCharacters (first :: tail)).length)
    generalize isMore : space _ ++ spaceOut text space stop others =
      more at sameHead spacedParts
    have sameBytes :
        front ++ spaceOut text space offset (⟨kind, valueOf kind (first :: tail), start,
          stop⟩ :: others) =
        front ++ (ofCharacters gap ++ (ofCharacters (first :: tail) ++ more)) := by
      simp [spaceOut, bytes, split, ← isMore]
    have sameCharacters : Text.characters (front ++ spaceOut text space offset
        (⟨kind, valueOf kind (first :: tail), start, stop⟩ :: others)) =
        front.characters ++ gap ++ first :: (tail ++ more.characters) := by
      rw [← gapReads] at filler
      rw [sameBytes, characters_filler frontFiller, characters_filler filler, gapReads,
        (lexeme_cases read).characters_append tokenReads, List.append_assoc, List.cons_append]
    have runsApart : ∀ c ∈ more.characters.head?, kind.runsOn c.code = false := by
      intro c next
      rw [sameHead, List.head?_append, Option.mem_def, Option.or_eq_some_iff] at next
      rcases next with isBlank | ⟨-, isLeft⟩
      · exact runsOn_separator kind (tokenSpace.blank c isBlank)
      · exact apart c isLeft
    rw [sameCharacters]
    constructor
    · cases front.characters <;> cases gap <;> simp
    · refine ⟨_, _, .token (frontFiller.append filler) rfl visible
        ((lexeme_cases read).again _ runsApart) runsApart rfl
        spacedParts, ?_, sameLast⟩
      simp [Token.spelling, sameOthers]

/-- A text with space in front of it and behind its tokens is scanned to the
same tokens. -/
theorem scan_spaced {text : Text} {stream : Scanner.Stream}
    (scanned : Token.scan text = .ok stream) {front : Text} {space : Token → Text}
    (frontSpace : Space front) (spaces : ∀ t ∈ stream.tokens, Space (space t)) :
    ∃ spaced, Token.scan (front ++ spaceOut text space 0 stream.tokens) = .ok spaced ∧
      spaced.tokens.map Token.spelling = stream.tokens.map Token.spelling ∧
      spaced.last.spelling = stream.last.spelling := by
  obtain ⟨-, spaced, spacedLast, parts, sameTokens, sameLast⟩ :=
    ((scan_iff_parts text stream).mp scanned).spaced (.whole text) spaces frontSpace.filler 0
  exact ⟨⟨spaced, spacedLast⟩, (scan_iff_parts _ _).mpr parts, sameTokens, sameLast⟩

end Persona.Token
