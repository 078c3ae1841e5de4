import Persona.Proofs.Grammar.Steady
import Persona.Proofs.Token.Spacing

/-!
# Space in a document

Blanks and comments between the tokens do not change what a document is read to: the
same tokens are scanned, at other places, and the parser only reports places. So the
personality is the same, or else the errors are the same but for their places.
-/

namespace Persona

/-- Everything at one place. -/
def nowhere : Nat → Nat := fun _ => 0

/-- Without their places, tokens are what they say. -/
theorem Token.moved_nowhere (t : Token) :
    t.moved nowhere = ⟨t.spelling.1, t.spelling.2, 0, 0⟩ := rfl

/-- Tokens that say the same are the same without their places. -/
theorem Token.map_moved_nowhere {tokens others : List Token}
    (same : others.map Token.spelling = tokens.map Token.spelling) :
    others.map (Token.moved nowhere) = tokens.map (Token.moved nowhere) := by
  have unplaced : Token.moved nowhere = (fun s : Spelling =>
      ⟨s.1, s.2, 0, 0⟩) ∘ Token.spelling := rfl
  rw [unplaced, ← List.map_map, same, List.map_map]

/-- The place of a syntax error has no part in its code. -/
theorem SyntaxError.code_moved (move : Nat → Nat) (e : SyntaxError) :
    (e.moved move).cause.code = e.cause.code := by
  obtain ⟨cause, token, start, stop⟩ := e
  cases cause <;> rfl

/-- The codes of the notices do not depend on where the events happened. -/
theorem Event.notice_codes {move : Nat → Nat} {events others : List Event}
    (same : others.map (Event.moved move) = events.map (Event.moved move))
    (source otherSource : Source) :
    (others.filterMap (Event.notice? otherSource)).map ParseError.code =
      (events.filterMap (Event.notice? source)).map ParseError.code := by
  have placeless (reported : Source) (events : List Event) :
      (events.filterMap (Event.notice? reported)).map ParseError.code =
      (events.map (Event.moved move)).filterMap fun event =>
        (event.notice? source).map ParseError.code := by
    rw [List.map_filterMap, List.filterMap_map]
    apply List.filterMap_congr
    intro event _
    cases event <;> rfl
  rw [placeless, same, ← placeless]

namespace Personality

open Grammar

/-- Two documents with tokens that say the same are read alike. -/
theorem read_alike {text other : Text} {stream spaced : Scanner.Stream}
    (scanned : Token.scan text = .ok stream) (otherScanned : Token.scan other = .ok spaced)
    (sameTokens : spaced.tokens.map Token.spelling = stream.tokens.map Token.spelling)
    (sameLast : spaced.last.spelling = stream.last.spelling) (options : ReadingOptions) :
    (read options other).notices.map ParseError.code = (read options text).notices.map
      ParseError.code ∧
      (read options other).result.mapError (List.map ParseError.code) =
        (read options text).result.mapError (List.map ParseError.code) := by
  have steady : Steady nowhere document := document_steady
  have first := steady ⟨stream.last, options.limit, 0⟩ stream.tokens options.limit (.inl rfl)
  have second := steady ⟨spaced.last, options.limit, 0⟩ spaced.tokens options.limit (.inl rfl)
  rw [Token.map_moved_nowhere sameTokens, Token.moved_nowhere, sameLast,
    ← Token.moved_nowhere, first] at second
  simp only [read, scanned, otherScanned]
  generalize document ⟨stream.last, options.limit, 0⟩ stream.tokens = reply at second
  generalize document ⟨spaced.last, options.limit, 0⟩ spaced.tokens = otherReply at second
  have sameNotices := Event.notice_codes (congrArg Reply.events second).symm
    (Source.ofText options.file text)
    (Source.ofText options.file other)
  have sameOutcome := congrArg Reply.outcome second
  generalize reply.events.filterMap (Event.notice? (Source.ofText options.file text)) =
    notices at sameNotices
  generalize otherReply.events.filterMap (Event.notice?
    (Source.ofText options.file other)) = otherNotices at sameNotices
  refine ⟨sameNotices, ?_⟩
  -- In a strict reading the notices are errors as well.
  obtain ⟨held, isHeld⟩ : ∃ held, held = if options.strict then notices else [] := ⟨_, rfl⟩
  obtain ⟨otherHeld, isOtherHeld⟩ : ∃ held, held =
      if options.strict then otherNotices else [] := ⟨_, rfl⟩
  have sameHeld : otherHeld.map ParseError.code = held.map ParseError.code := by
    rw [isHeld, isOtherHeld]
    split
    · exact sameNotices
    · rfl
  rw [← isHeld, ← isOtherHeld]
  simp only [Reply.moved] at sameOutcome
  cases outcome : reply.outcome with
  | error e =>
    cases otherOutcome : otherReply.outcome with
    | ok answer => simp [outcome, otherOutcome] at sameOutcome
    | error other =>
      simp only [outcome, otherOutcome, Except.error.injEq] at sameOutcome
      have sameCode := congrArg (fun e : SyntaxError => e.cause.code) sameOutcome
      simp only [SyntaxError.code_moved] at sameCode
      simp [Except.mapError, sameHeld, ParseError.code, ParseError.ofSyntaxError, sameCode]
  | ok answer =>
    cases otherOutcome : otherReply.outcome with
    | error e => simp [outcome, otherOutcome] at sameOutcome
    | ok other =>
      simp only [outcome, otherOutcome, Except.ok.injEq, Prod.mk.injEq, id] at sameOutcome
      have samePersonality : other.1 = answer.1 := sameOutcome.1.symm
      dsimp only
      rw [samePersonality]
      cases held with
      | nil =>
        obtain rfl : otherHeld = [] := by simpa using sameHeld
        rfl
      | cons first held =>
        cases otherHeld with
        | nil => simp at sameHeld
        | cons otherFirst otherHeld => simpa [Except.mapError] using sameHeld

/-- Blanks and comments, starting with a blank, in front of a document and behind
any of its tokens change neither the tokens nor what the document is read to, apart
from places. -/
theorem read_spaced {text : Text} {stream : Scanner.Stream}
    (scanned : Token.scan text = .ok stream) {front : Text} {space : Token → Text}
    (frontSpace : Token.Space front) (spaces : ∀ t ∈ stream.tokens, Token.Space (space t)) :
    (∃ spaced, Token.scan (front ++ Token.spaceOut text space 0 stream.tokens) = .ok spaced ∧
      spaced.tokens.map Token.spelling = stream.tokens.map Token.spelling ∧
      spaced.last.spelling = stream.last.spelling) ∧
    ∀ options,
      (read options (front ++ Token.spaceOut text space 0 stream.tokens)).notices.length =
        (read options text).notices.length ∧
      (read options (front ++ Token.spaceOut text space 0 stream.tokens)).result.mapError
      (List.map ParseError.code) =
        (read options text).result.mapError (List.map ParseError.code) := by
  obtain ⟨spaced, otherScanned, sameTokens, sameLast⟩ :=
    Token.scan_spaced scanned frontSpace spaces
  refine ⟨⟨spaced, otherScanned, sameTokens, sameLast⟩, fun options => ?_⟩
  obtain ⟨sameNotices, sameResult⟩ :=
    read_alike scanned otherScanned sameTokens sameLast options
  constructor
  · simpa using congrArg List.length sameNotices
  · exact sameResult

/-- A document on one line, with an entry that is skipped. -/
def crowded : Text := "personality P\x7btraits\x7bb;a:8/4\x7d\x7d"

/-- The tokens of the document. -/
def crowdedStream : Scanner.Stream :=
  ⟨[⟨.personality, "personality", 0, 11⟩, ⟨.name, "P", 12, 13⟩,
    ⟨.braceOpen, "\x7b", 13, 14⟩, ⟨.traits, "traits", 14, 20⟩, ⟨.braceOpen, "\x7b", 20, 21⟩,
    ⟨.name, "b", 21, 22⟩, ⟨.semicolon, ";", 22, 23⟩, ⟨.name, "a", 23, 24⟩,
    ⟨.colon, ":", 24, 25⟩, ⟨.number, "8", 25, 26⟩, ⟨.divide, "/", 26, 27⟩,
    ⟨.number, "4", 27, 28⟩, ⟨.braceClose, "\x7d", 28, 29⟩,
    ⟨.braceClose, "\x7d", 29, 30⟩], ⟨.endOfInput, [], 30, 30⟩⟩

/-- A line comment, and a comment inside a comment, both with a blank in front. -/
theorem space_comments : Token.Space " //\n" ∧ Token.Space "\t/*/**/*/" := by
  have line : Text.characters " //\n" = [⟨32, [32]⟩, ⟨47, [47]⟩, ⟨47, [47]⟩,
      ⟨10, [10]⟩] := by decide +kernel
  have block : Text.characters "\t/*/**/*/" = [⟨9, [9]⟩, ⟨47, [47]⟩, ⟨42, [42]⟩, ⟨47, [47]⟩,
      ⟨42, [42]⟩, ⟨42, [42]⟩,
      ⟨47, [47]⟩, ⟨42, [42]⟩, ⟨47, [47]⟩] := by decide +kernel
  constructor
  · constructor
    · rw [line]
      exact .blank (by decide) (.line rfl rfl (List.forall_mem_nil _) rfl .nothing)
    · rw [line]
      decide
  · constructor
    · rw [block]
      exact .blank (by decide)
        (.block rfl rfl (.nested rfl rfl (.closing rfl rfl) (.closing rfl rfl)) .nothing)
    · rw [block]
      decide

/-- The document with a line comment in front and another comment behind its slash. -/
theorem read_spaced_crowded :
    (∃ spaced, Token.scan (" //\n" ++ Token.spaceOut crowded (fun t =>
      if t.kind = .divide then "\t/*/**/*/" else []) 0
        crowdedStream.tokens) = .ok spaced ∧
      spaced.tokens.map Token.spelling = crowdedStream.tokens.map Token.spelling ∧
      spaced.last.spelling = crowdedStream.last.spelling) ∧
    ∀ options,
      (read options (" //\n" ++ Token.spaceOut crowded (fun t =>
      if t.kind = .divide then "\t/*/**/*/" else []) 0
        crowdedStream.tokens)).notices.length = (read options crowded).notices.length ∧
      (read options (" //\n" ++ Token.spaceOut crowded (fun t =>
      if t.kind = .divide then "\t/*/**/*/" else []) 0
        crowdedStream.tokens)).result.mapError (List.map ParseError.code) =
          (read options crowded).result.mapError (List.map ParseError.code) := by
  apply read_spaced
  · decide +kernel
  · exact space_comments.1
  · intro t _
    split
    · exact space_comments.2
    · exact ⟨.nothing, by simp [Text.characters, Text.charactersAfter]⟩

end Personality

end Persona
