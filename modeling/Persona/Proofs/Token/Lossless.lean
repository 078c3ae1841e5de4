import Persona.Proofs.Text.Boundary
import Persona.Proofs.Token.Filler
import Persona.Proofs.Grammar.Printable

/-!
# Scanning loses nothing

A text that is scanned consists of its tokens and of filler: in front of the first token,
between any two, and behind the last. So the tokens tile the text, with filler in the
gaps, and each covers exactly the bytes that were written for it. The other direction
holds too, character by character, so that tiling a text is all there is to scanning it.

A scanner that is asked again at the end, or after its first error, gives the same answer.
-/

namespace Persona.Token

open Character (isSeparator)
open Text (ofCharacters Quotable)

/-- The characters from `offset` on are these tokens with filler before, between and
behind them. No token runs on into what follows it. -/
inductive Parts : (offset : Nat) → List Character → List Token → (last : Token) → Prop where
  | done {offset stop : Nat} {gap : List Character} (filler : Filler True gap)
      (stops : stop = offset + (ofCharacters gap).length) :
        Parts offset gap [] ⟨.endOfInput, [], stop, stop⟩
  | token {offset start stop : Nat} {gap tail left : List Character} {first : Character}
      {kind : Kind}
      {others : List Token} {last : Token} (filler : Filler False gap)
      (starts : start = offset + (ofCharacters gap).length)
        (visible : isSeparator first.code = false)
      (read : lexeme first (tail ++ left) = ⟨.ok kind, first :: tail, left⟩)
      (apart : ∀ c ∈ left.head?, kind.runsOn c.code = false)
      (stops : stop = start + (ofCharacters (first :: tail)).length)
        (rest : Parts stop left others last) :
      Parts offset (gap ++ first :: (tail ++ left))
        (⟨kind, valueOf kind (first :: tail), start, stop⟩ :: others) last

/-- A character with an ASCII code is the ASCII byte with this code. -/
theorem ascii_of_formed {c : Character} (formed : c.Formed) (small : c.code < 0x80) :
    c.bytes = [UInt8.ofNat c.code] ∧ c.width = 1 := by
  rcases formed with ⟨b, -, rfl⟩ | sequence
  · simp [Character.undecodable, Character.replacement] at small
  rcases sequence.ascii_or_above with ⟨b, -, rfl⟩ | ⟨large, -⟩
  · exact ⟨by simp, rfl⟩
  · omega

/-- What the scanner skips, and where it arrives, is filler and its length. -/
theorem skipGap_eq {offset stop : Nat} {cs more : List Character} (formed : ∀ c ∈ cs, c.Formed)
    (skipped : skipGap .open offset cs = .ok (stop, more)) :
    ∃ gap, cs = gap ++ more ∧ stop = offset + (ofCharacters gap).length ∧
      Filler (more = []) gap ∧ StartsToken more := by
  obtain ⟨starts, gap, split, arrives, filler⟩ :=
    skipGap_skips (fun c member small => (ascii_of_formed (formed c member) small).2) skipped
  exact ⟨gap, split, arrives, filler, starts⟩

/-- Filler in front of what is skipped no further is skipped as it is. -/
theorem Filler.skipGap {final : Prop} {gap more : List Character} {offset : Nat}
    (filler : Filler final gap)
    (atEnd : final → more = []) (formed : ∀ c ∈ gap ++ more, c.Formed)
    (stays : ∀ stop, Token.skipGap .open stop more = .ok (stop, more)) :
    Token.skipGap .open offset (gap ++ more) = .ok (offset + (ofCharacters gap).length,
      more) := by
  obtain ⟨stop, skipped⟩ := filler.skipped atEnd offset
  rw [stays] at skipped
  obtain ⟨same, split, arrives, -⟩ := skipGap_eq formed skipped
  rw [skipped, arrives, List.append_cancel_right split]

/-- What a scanner collects are the parts of what it reads. -/
theorem parts_of_collect {fuel offset : Nat} {cs : List Character} {stream : Scanner.Stream}
    (enough : cs.length < fuel) (formed : ∀ c ∈ cs, c.Formed)
    (collected : Scanner.collect fuel ⟨offset, cs, none⟩ = .ok stream) :
    Parts offset cs stream.tokens stream.last := by
  induction fuel generalizing offset cs stream with
  | zero => omega
  | succ fuel inductionHypothesis =>
    rcases collect_cases collected with ⟨stop, skipped, rfl⟩ |
      ⟨start, first, tail, left, kind, after, skipped, read, others, rfl⟩
    · obtain ⟨gap, rfl, stops, filler, -⟩ := skipGap_eq formed skipped
      rw [List.append_nil]
      exact .done (filler.imp fun _ => trivial) stops
    · obtain ⟨gap, rfl, isStart, filler, starts⟩ := skipGap_eq formed skipped
      obtain ⟨visible, noComment⟩ := starts first (tail ++ left) rfl
      have apart : ∀ c ∈ left.head?, kind.runsOn c.code = false := by
        by_cases slash : first.code = 47
        · rw [lexeme_slash _ slash] at read
          obtain ⟨sameKind, sameTaken, -⟩ := Lexeme.mk.inj read
          obtain rfl : .divide = kind := Except.ok.inj sameKind
          obtain rfl : [] = tail := (List.cons.inj sameTaken).2
          intro c next
          simpa [Kind.runsOn] using noComment slash c next
        · exact (lexeme_cases read).stopped slash
      have shorter : left.length < fuel := by
        simp at enough
        omega
      have formedLeft : ∀ c ∈ left, c.Formed := fun c member => formed c (by simp [member])
      exact .token (filler.imp (by simp)) isStart visible read apart rfl
        (inductionHypothesis shorter formedLeft others)

/-- A scanner collects the parts of what it reads. -/
theorem Parts.collect {fuel offset : Nat} {cs : List Character} {tokens : List Token}
    {last : Token} (parts : Parts offset cs tokens last) (enough : cs.length < fuel)
    (formed : ∀ c ∈ cs, c.Formed) :
    Scanner.collect fuel ⟨offset, cs, none⟩ = .ok ⟨tokens, last⟩ := by
  induction parts generalizing fuel with
  | @done offset stop gap filler stops =>
    obtain ⟨fuel, rfl⟩ :=
      Nat.exists_eq_add_one_of_ne_zero (Nat.ne_of_gt (Nat.zero_lt_of_lt enough))
    have skipped : skipGap .open offset (gap ++ []) = _ :=
      filler.skipGap (fun _ => rfl) (by simpa using formed) fun _ => rfl
    rw [List.append_nil] at skipped
    simp [Scanner.collect, Scanner.next, skipped, stops]
  | @token offset start stop gap tail left first kind others last filler starts visible read
      apart stops rest
      inductionHypothesis =>
    obtain ⟨fuel, rfl⟩ :=
      Nat.exists_eq_add_one_of_ne_zero (Nat.ne_of_gt (Nat.zero_lt_of_lt enough))
    have skipped : skipGap .open offset (gap ++ first :: (tail ++ left)) = _ :=
      filler.skipGap False.elim formed fun stop => skipGap_token stop visible read apart
    have shorter : left.length < fuel := by
      simp at enough
      omega
    have collected := inductionHypothesis shorter fun c member => formed c (by simp [member])
    rw [stops, starts] at collected
    simp only [Scanner.collect, Scanner.next, skipped, read, (lexeme_cases read).kind.1,
      if_false, collected]
    rw [stops, starts]
    rfl

/-- Scanning a text is finding its parts. -/
theorem scan_iff_parts (text : Text) (stream : Scanner.Stream) :
    Token.scan text = .ok stream ↔ Parts 0 text.characters stream.tokens stream.last := by
  constructor
  · intro scanned
    exact parts_of_collect (Nat.lt_succ_self _) (fun _ member =>
      Text.mem_characters member) scanned
  · intro parts
    exact parts.collect (Nat.lt_succ_self _) fun _ member => Text.mem_characters member

/-- The bytes that are written for a token: strings stand between quotes. -/
def written (t : Token) : Text := if t.kind = .string then 34 :: t.value ++ [34] else t.value

/-- From `offset` to its end the text is tiled: by filler, the bytes of a token, and so on
to filler and the end. -/
inductive Tiles (text : Text) : (offset : Nat) → List Token → (last : Token) → Prop where
  | last {offset : Nat} (within : offset ≤ text.length)
      (gap : Filler True (Text.characters (text.drop offset))) :
      Tiles text offset [] ⟨.endOfInput, [], text.length, text.length⟩
  | token {offset : Nat} {t : Token} {others : List Token} {last : Token}
      (visible : t.kind ≠ .endOfInput ∧ t.kind ≠ .failure) (later : offset ≤ t.start)
        (covers : t.start < t.stop)
      (gap : Filler False (Text.characters (text.extract offset t.start)))
        (bytes : text.extract t.start t.stop = t.written)
      (inside : t.kind = .string → Quotable t.value) (rest : Tiles text t.stop others last) :
      Tiles text offset (t :: others) last

/-- The text from `offset` on, as a scanner holds it. -/
structure Holds (text : Text) (offset : Nat) (cs : List Character) : Prop where
  within : offset ≤ text.length
  bytes : text.drop offset = ofCharacters cs
  readBack : (ofCharacters cs).characters = cs

/-- A scanner holds all of a text at first. -/
theorem Holds.whole (text : Text) : Holds text 0 text.characters := by
  constructor
  · exact Nat.zero_le text.length
  · exact (Text.ofCharacters_characters text).symm
  · rw [Text.ofCharacters_characters]

/-- Characters that are taken are the next bytes of the text, and are read from these
alone; the others are what is left of it. -/
theorem Holds.take {text : Text} {offset : Nat} {taken left : List Character}
    (holds : Holds text offset (taken ++ left)) :
    text.extract offset (offset + (ofCharacters taken).length) = ofCharacters taken ∧
      (ofCharacters taken).characters = taken ∧
      Holds text (offset + (ofCharacters taken).length) left := by
  obtain ⟨within, bytes, readBack⟩ := holds
  obtain ⟨-, readTaken, readLeft⟩ := Text.characters_cut readBack
  have split : ofCharacters (taken ++ left) = ofCharacters taken ++ ofCharacters left := by
    simp [ofCharacters]
  rw [split] at bytes
  constructor
  · rw [List.extract_eq_take_drop, bytes, Nat.add_sub_cancel_left, List.take_left]
  constructor
  · exact readTaken
  · have total := congrArg List.length bytes
    rw [List.length_drop, List.length_append] at total
    constructor
    · omega
    · rw [← List.drop_drop, bytes, List.drop_left]
    · exact readLeft

/-- The characters that a scanner holds are those of a text. -/
theorem Holds.formed {text : Text} {offset : Nat} {cs : List Character}
    (holds : Holds text offset cs) :
    ∀ c ∈ cs, c.Formed := by
  intro c member
  rw [← holds.readBack] at member
  exact Text.mem_characters member

/-- A string is read from its quotes and what is between them. -/
theorem Lexed.string_cases {first : Character} {rest taken left : List Character}
    (lexed : Lexed first rest .string taken left) :
    ∃ content close, taken = first :: content ++ [close] ∧
      first.code = 34 ∧ close.code = 34 ∧ ∀ c ∈ content, c.code ≠ 34 ∧ c.code ≠ 10 := by
  generalize isString : Kind.string = kind at lexed
  cases lexed with
  | string content close _ quote closes inside =>
    exact ⟨content, close, rfl, quote, closes, inside⟩
  | double next left kind notLess symbol =>
    exact absurd isString.symm (doubleSymbol?_kind symbol).1
  | single left kind notLess symbol apart => exact absurd isString.symm (symbol?_kind symbol).1
  | word run left letter within stops =>
    rcases word_kind (ofCharacters (first :: run)) with isName | keyword
    · rw [← isString] at isName
      cases isName
    · rw [← isString] at keyword
      cases keyword
  | _ => cases isString

/-- A token is written as the characters that were read for it. -/
theorem Lexed.written {first : Character} {rest taken left : List Character} {kind : Kind}
    (lexed : Lexed first rest kind taken left) (formed : ∀ c ∈ taken, c.Formed)
    (start stop : Nat) :
    Token.written ⟨kind, valueOf kind taken, start, stop⟩ = ofCharacters taken := by
  by_cases isString : kind = .string
  · subst isString
    obtain ⟨content, close, rfl, quote, closes, -⟩ := lexed.string_cases
    have opening := (ascii_of_formed (formed first (by simp)) (by omega)).1
    have closing := (ascii_of_formed (formed close (by simp)) (by omega)).1
    simp [Token.written, valueOf, ofCharacters, opening, closing, quote, closes]
  · simp only [Token.written, isString, if_false]
    cases kind <;> first | rfl | exact absurd rfl isString

/-- The parts of a text tile it. -/
theorem Parts.tiles {text : Text} {offset : Nat} {cs : List Character} {tokens : List Token}
    {last : Token} (parts : Parts offset cs tokens last) (holds : Holds text offset cs) :
    Tiles text offset tokens last := by
  induction parts with
  | @done offset stop gap filler stops =>
    have atEnd : stop = text.length := by
      have total := congrArg List.length holds.bytes
      rw [List.length_drop] at total
      have within := holds.within
      omega
    rw [atEnd]
    apply Tiles.last holds.within
    rw [holds.bytes, holds.readBack]
    exact filler
  | @token offset start stop gap tail left first kind others last filler starts visible read
      apart stops rest
      inductionHypothesis =>
    obtain ⟨gapBytes, gapReads, fromToken⟩ := holds.take
    rw [← List.cons_append] at fromToken
    obtain ⟨tokenBytes, tokenReads, behind⟩ := fromToken.take
    rw [← starts] at gapBytes tokenBytes behind
    rw [← stops] at tokenBytes behind
    have lexed := lexeme_cases read
    have formed := fromToken.formed
    have some : 0 < (ofCharacters (first :: tail)).length := by
      rw [List.length_pos_iff_ne_nil]
      intro none
      rw [none] at tokenReads
      cases tokenReads
    apply Tiles.token lexed.kind
    · change offset ≤ start
      omega
    · change start < stop
      omega
    · rw [gapBytes, gapReads]
      exact filler
    · rw [tokenBytes, lexed.written fun c member => formed c (List.mem_append_left _ member)]
    · intro isString
      exact lexed.clean formed (.inl isString)
    · exact inductionHypothesis behind

end Token

namespace Scanner

/-- The error that a scanner has failed with. -/
def error? (s : Scanner) : Option LexError := s.failure.map Prod.fst

/-- What the end, or a failure, says of a later answer. -/
structure Lasting (earlier later : Token × Scanner) : Prop where
  ended : earlier.1.kind = .endOfInput → later.1 = earlier.1
  failed : earlier.1.kind = .failure → later.1.kind = .failure ∧
    later.2.error? = earlier.2.error?

/-- A scanner that has failed answers with a failure. -/
theorem next_of_failed {s : Scanner} {found : LexError × Nat × Nat}
    (failed : s.failure = some found) :
    s.next = (⟨.failure, [], found.2.1, found.2.2⟩, s) := by
  simp [next, failed]

/-- A scanner fails and has an error, or is at the end and stays there, or goes on. -/
theorem next_cases (s : Scanner) :
    (s.next.1.kind = .failure ∧ s.next.2.error?.isSome = true) ∨
      (s.next.1.kind = .endOfInput ∧ s.next.2.error? = none ∧ s.next.2.next = s.next) ∨
      ((s.next.1.kind ≠ .endOfInput ∧ s.next.1.kind ≠ .failure) ∧ s.next.2.error? = none) := by
  obtain ⟨offset, rest, failure⟩ := s
  cases failure with
  | some found => simp [next, error?]
  | none =>
    cases skipped : Token.skipGap .open offset rest with
    | error unclosed => simp [next, error?, skipped]
    | ok gap =>
      obtain ⟨start, more⟩ := gap
      cases more with
      | nil => simp [next, error?, skipped, Token.skipGap]
      | cons first rest =>
        cases read : Token.lexeme first rest with
        | mk verdict taken left =>
          cases verdict with
          | error cause => simp [next, error?, skipped, read]
          | ok kind => simp [next, error?, skipped, read, (Token.lexeme_cases read).kind]

/-- A scanner has an error exactly if it answered with a failure. -/
theorem next_failure_iff (s : Scanner) : s.next.1.kind = .failure ↔
    s.next.2.error?.isSome = true := by
  rcases next_cases s with ⟨isFailure, hasError⟩ | ⟨isEnd, noError, -⟩ | ⟨⟨-, other⟩, noError⟩
  · simp [isFailure, hasError]
  · simp [isEnd, noError]
  · simp [other, noError]

/-- At the end, the scanner is asked again in vain. -/
theorem next_of_ended {s : Scanner} (ended : s.next.1.kind = .endOfInput) :
    s.next.2.next = s.next := by
  rcases next_cases s with ⟨isFailure, -⟩ | ⟨-, -, stays⟩ | ⟨⟨other, -⟩, -⟩
  · rw [ended] at isFailure
    cases isFailure
  · exact stays
  · exact absurd ended other

/-- A scanner that stays as it is gives one answer. -/
theorem eq_of_mem_take {s : Scanner} {t : Token} (stays : s.next = (t, s)) {count : Nat}
    {answer : Token × Scanner} (member : answer ∈ take count s) : answer = (t, s) := by
  induction count with
  | zero => cases member
  | succ count inductionHypothesis =>
    rw [take, stays] at member
    rcases List.mem_cons.mp member with first | later
    · exact first
    · exact inductionHypothesis later

/-- Every answer that is the end or a failure lasts. -/
theorem lasting_of_mem_take {s : Scanner} {count : Nat} {answer : Token × Scanner}
    (member : answer ∈ take count s.next.2) : Lasting s.next answer := by
  constructor
  · intro ended
    have stays : s.next.2.next = (s.next.1, s.next.2) := next_of_ended ended
    rw [eq_of_mem_take stays member]
  · intro isFailure
    obtain ⟨found, failed⟩ : ∃ found, s.next.2.failure = some found := by
      simpa [error?, Option.isSome_iff_exists] using (next_failure_iff s).mp isFailure
    rw [eq_of_mem_take (next_of_failed failed) member]
    exact ⟨rfl, rfl⟩

/-- However often a scanner is asked, it fails exactly when it has an error, and its
answers last. -/
theorem pairwise_take (s : Scanner) (count : Nat) : (take count s).Pairwise Lasting ∧
    ∀ answer ∈ take count s, answer.1.kind = .failure ↔ answer.2.error?.isSome = true := by
  induction count generalizing s with
  | zero => simp [take]
  | succ count inductionHypothesis =>
    obtain ⟨others, failures⟩ := inductionHypothesis s.next.2
    rw [take]
    constructor
    · exact List.pairwise_cons.mpr ⟨fun _ member => lasting_of_mem_take member, others⟩
    · exact List.forall_mem_cons.mpr ⟨next_failure_iff s, failures⟩

end Scanner

/-- A text that is scanned is tiled by its tokens, from the start to the end, and there is
only filler between them. However often a scanner is asked, the end stays the end, and
after the first failure there are only failures, with the first error. -/
theorem Token.scan_lossless (text : Text) :
    (∀ stream, Token.scan text = .ok stream → Token.Tiles text 0 stream.tokens stream.last) ∧
      ∀ count, (Scanner.take count (Scanner.ofText text)).Pairwise Scanner.Lasting ∧
        ∀ answer ∈ Scanner.take count (Scanner.ofText text), answer.1.kind = .failure ↔
          answer.2.error?.isSome = true := by
  constructor
  · intro stream scanned
    exact ((scan_iff_parts text stream).mp scanned).tiles (.whole text)
  · exact Scanner.pairwise_take (Scanner.ofText text)

/-- A name, a comment inside a comment, a string and a line comment without
a line feed. -/
theorem Token.scan_lossless_comments : ∃ stream, Token.scan "a/*/**/*/\"b\" //" = .ok stream ∧
    Token.Tiles "a/*/**/*/\"b\" //" 0 stream.tokens stream.last :=
  ⟨⟨[⟨.name, "a", 0, 1⟩, ⟨.string, "b", 9, 12⟩], ⟨.endOfInput, [], 15, 15⟩⟩, by decide +kernel,
    (Token.scan_lossless "a/*/**/*/\"b\" //").1 _ (by decide +kernel)⟩

end Persona
