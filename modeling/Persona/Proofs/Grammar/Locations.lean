import Persona.Proofs.Source
import Persona.Proofs.Grammar.Reader
import Persona.Proofs.Token.Lossless

/-!
# Where errors are located

The scanner moves over whole characters, whether it skips, reads a token or fails. So all
tokens, and the bytes of a failure with them, start and stop between two characters of the
text. An error of the grammar and the notice of a skipped entry stand at one token, with
the text of this token.
-/

namespace Persona

namespace Token

open Text (ofCharacters Leaves Boundary)

/-- The bytes from `start` up to `stop` are whole characters of the text. -/
structure Delimits (text : Text) (start stop : Nat) : Prop where
  starts : Boundary text start
  stops : Boundary text stop
  ordered : start ≤ stop

/-- Characters that are passed are whole. -/
theorem delimits_pass {text : Text} {offset : Nat} {taken left : List Character}
    (leaves : Leaves text offset (taken ++ left)) :
    Delimits text offset (offset + (ofCharacters taken).length) where
  starts := leaves.boundary
  stops := leaves.pass.boundary
  ordered := Nat.le_add_right offset _

/-- Each token, and the end, is made of whole characters. -/
theorem Parts.delimits {text : Text} {offset : Nat} {cs : List Character}
    {tokens : List Token} {last : Token}
    (parts : Parts offset cs tokens last) (leaves : Leaves text offset cs) :
    ∀ t ∈ tokens ++ [last], Delimits text t.start t.stop := by
  induction parts with
  | @done offset stop gap filler stops =>
    rw [← List.append_nil gap] at leaves
    have atEnd := stops ▸ leaves.pass.boundary
    intro t member
    obtain rfl := List.mem_singleton.mp member
    exact ⟨atEnd, atEnd, le_rfl⟩
  | @token offset start stop gap tail left first kind others last filler starts visible read
      apart stops rest
      inductionHypothesis =>
    have fromToken : Leaves text start ((first :: tail) ++ left) := starts ▸ leaves.pass
    rw [List.cons_append, List.forall_mem_cons]
    constructor
    · rw [stops]
      exact delimits_pass fromToken
    · exact inductionHypothesis (stops ▸ fromToken.pass)

/-- The bytes of a token, and of the end, are what is written for it. -/
theorem Tiles.bytes {text : Text} {offset : Nat} {tokens : List Token} {last : Token}
    (tiles : Tiles text offset tokens last) :
    ∀ t ∈ tokens ++ [last], text.extract t.start t.stop = t.written := by
  induction tiles with
  | last within gap =>
    intro t member
    obtain rfl := List.mem_singleton.mp member
    simp [Token.written, List.extract_eq_take_drop]
  | token visible later covers gap bytes inside rest inductionHypothesis =>
    rw [List.cons_append, List.forall_mem_cons]
    exact ⟨bytes, inductionHypothesis⟩

/-- The characters that were there: what a token takes and what it leaves. -/
def Lexeme.all (l : Lexeme) : List Character := l.taken ++ l.left

/-- Closing a number loses no characters. -/
theorem closeNumber_all (taken left : List Character) :
    (closeNumber taken left).all = taken ++ left := by
  unfold closeNumber
  split
  · split
    · simp [Lexeme.all]
    · rfl
  · rfl

/-- Reading a number loses no characters. -/
theorem numberLexeme_all (first : Character) (rest : List Character) :
    (numberLexeme first rest).all = first :: rest := by
  have split := List.takeWhile_append_dropWhile (p :=
    fun c => Character.isAsciiDigit c.code) (l := rest)
  unfold numberLexeme
  dsimp only
  cases ends : rest.dropWhile fun c => Character.isAsciiDigit c.code with
  | nil =>
    rw [ends] at split
    simpa [closeNumber_all] using split
  | cons point afterPoint =>
    rw [ends] at split
    dsimp only
    split
    · split
      · simpa [Lexeme.all] using split
      · simpa [closeNumber_all] using split
    · simpa [closeNumber_all] using split

/-- Reading a string loses no characters. -/
theorem stringLexeme_all (quote : Character) (rest : List Character) :
    (stringLexeme quote rest).all = quote :: rest := by
  have split := List.takeWhile_append_dropWhile (p := fun c => c.code != 34 && c.code != 10)
    (l := rest)
  unfold stringLexeme
  dsimp only
  cases ends : rest.dropWhile fun c => c.code != 34 && c.code != 10 with
  | nil =>
    rw [ends] at split
    simpa [Lexeme.all] using split
  | cons c left =>
    rw [ends] at split
    dsimp only
    split <;> simpa [Lexeme.all] using split

/-- Reading what starts with a less-than sign loses no characters. -/
theorem lessLexeme_all (less : Character) (rest : List Character) :
    (lessLexeme less rest).all = less :: rest := by
  unfold lessLexeme
  split
  · split
    · rfl
    · split <;> rfl
  · split <;> rfl
  · rfl

/-- Reading what is no symbol of two characters loses no characters. -/
theorem simpleLexeme_all (first : Character) (rest : List Character) :
    (simpleLexeme first rest).all = first :: rest := by
  unfold simpleLexeme
  split
  · rfl
  · split
    · exact stringLexeme_all first rest
    · split
      · exact numberLexeme_all first rest
      · split
        · exact congrArg (first :: ·) List.takeWhile_append_dropWhile
        · rfl

/-- Reading a token loses no characters, also where it fails. -/
theorem lexeme_all (first : Character) (rest : List Character) :
    (lexeme first rest).all = first :: rest := by
  unfold lexeme
  split
  · exact lessLexeme_all first rest
  · split
    · split
      · rfl
      · exact simpleLexeme_all first _
    · exact simpleLexeme_all first []

/-- A character is passed. -/
theorem leaves_next {text : Text} {offset : Nat} {c : Character} {rest : List Character}
    (leaves : Leaves text offset (c :: rest)) : Leaves text (offset + c.width) rest := by
  have behind := Leaves.pass (show Leaves text offset ([c] ++ rest) from leaves)
  simpa [ofCharacters, Character.width] using behind

/-- Two ASCII characters are passed as two bytes. -/
theorem leaves_nextTwo {text : Text} {offset : Nat} {a b : Character} {rest : List Character}
    (leaves : Leaves text offset (a :: b :: rest)) (first : a.code < 0x80)
    (second : b.code < 0x80) :
    Leaves text (offset + 2) rest := by
  have width : a.width = 1 :=
    (ascii_of_formed (Text.mem_characters (leaves.mem (by simp))) first).2
  have nextWidth : b.width = 1 :=
    (ascii_of_formed (Text.mem_characters (leaves.mem (by simp))) second).2
  have behind := leaves_next (leaves_next leaves)
  rw [width, nextWidth] at behind
  exact behind

/-- Where a block comment is left open, whole characters were skipped, both in front of it
and inside of it.

Proof: by induction on the skipping. Where a comment starts or ends, two characters are
skipped as two bytes, because they are ASCII. -/
theorem skipGap_delimits {text : Text} {gap : Gap} {offset opened stop : Nat}
    {cs : List Character} (leaves : Leaves text offset cs)
    (inside : ∀ start depth, gap = .block start depth → Boundary text start ∧ start ≤ offset)
    (stuck : skipGap gap offset cs = .error (opened, stop)) : Delimits text opened stop := by
  fun_induction skipGap gap offset cs with
  | case1 start depth offset =>
    cases stuck
    obtain ⟨isStart, before⟩ := inside _ _ rfl
    exact ⟨isStart, leaves.boundary, before⟩
  | case2 => cases stuck
  | case3 offset c rest separates inductionHypothesis =>
    exact inductionHypothesis (leaves_next leaves) (by rintro _ _ ⟨⟩) stuck
  | case4 offset a visible b after opens inductionHypothesis =>
    obtain ⟨slash, second⟩ : a.code = 47 ∧ b.code = 47 := by simpa using opens
    exact inductionHypothesis (leaves_nextTwo leaves (by omega) (by omega))
      (by rintro _ _ ⟨⟩) stuck
  | case5 offset a visible b after noLine opens inductionHypothesis =>
    obtain ⟨slash, star⟩ : a.code = 47 ∧ b.code = 42 := by simpa using opens
    refine inductionHypothesis (leaves_nextTwo leaves (by omega) (by omega)) ?_ stuck
    rintro start depth ⟨⟩
    exact ⟨leaves.boundary, Nat.le_add_right offset 2⟩
  | case6 => cases stuck
  | case7 => cases stuck
  | case8 offset c rest inductionHypothesis =>
    refine inductionHypothesis (leaves_next leaves) ?_ stuck
    intro start depth isBlock
    split at isBlock <;> cases isBlock
  | case9 start depth offset a b after opens inductionHypothesis =>
    obtain ⟨slash, star⟩ : a.code = 47 ∧ b.code = 42 := by simpa using opens
    obtain ⟨isStart, before⟩ := inside _ _ rfl
    refine inductionHypothesis (leaves_nextTwo leaves (by omega) (by omega)) ?_ stuck
    rintro _ _ ⟨⟩
    exact ⟨isStart, by omega⟩
  | case10 start depth offset a b after noOpening closes inductionHypothesis =>
    obtain ⟨star, slash⟩ : a.code = 42 ∧ b.code = 47 := by simpa using closes
    obtain ⟨isStart, before⟩ := inside _ _ rfl
    refine inductionHypothesis (leaves_nextTwo leaves (by omega) (by omega)) ?_ stuck
    intro again deeper isBlock
    split at isBlock
    · cases isBlock
    · cases isBlock
      exact ⟨isStart, by omega⟩
  | case11 start depth offset a b after noOpening noClosing inductionHypothesis =>
    obtain ⟨isStart, before⟩ := inside _ _ rfl
    refine inductionHypothesis (leaves_next leaves) ?_ stuck
    rintro _ _ ⟨⟩
    exact ⟨isStart, by omega⟩
  | case12 start depth offset c inductionHypothesis =>
    obtain ⟨isStart, before⟩ := inside _ _ rfl
    refine inductionHypothesis (leaves_next leaves) ?_ stuck
    rintro _ _ ⟨⟩
    exact ⟨isStart, by omega⟩

/-- The bytes of a failure are whole characters. -/
theorem collect_delimits {text : Text} {fuel offset : Nat} {cs : List Character} {e : LexError}
    (leaves : Leaves text offset cs)
    (failed : Scanner.collect fuel ⟨offset, cs, none⟩ = .error e) :
    Delimits text e.start e.stop := by
  induction fuel generalizing offset cs with
  | zero => cases failed
  | succ fuel inductionHypothesis =>
    cases skipped : skipGap .open offset cs with
    | error ends =>
      obtain ⟨opened, stop⟩ := ends
      simp only [Scanner.collect, Scanner.next, skipped] at failed
      cases failed
      exact skipGap_delimits leaves (by rintro _ _ ⟨⟩) skipped
    | ok gap =>
      obtain ⟨start, more⟩ := gap
      cases more with
      | nil => simp [Scanner.collect, Scanner.next, skipped] at failed
      | cons first rest =>
        obtain ⟨gap, split, rfl, -⟩ :=
          skipGap_eq (fun c member => Text.mem_characters (leaves.mem member)) skipped
        rw [split] at leaves
        have fromToken : Leaves text (offset + (ofCharacters gap).length)
            (lexeme first rest).all := by
          rw [lexeme_all]
          exact leaves.pass
        cases read : lexeme first rest with
        | mk verdict taken left =>
          rw [read] at fromToken
          cases verdict with
          | error cause =>
            simp only [Scanner.collect, Scanner.next, skipped, read] at failed
            cases failed
            exact delimits_pass fromToken
          | ok kind =>
            simp only [Scanner.collect, Scanner.next, skipped, read,
              (lexeme_cases read).kind.1, if_false] at failed
            cases others : Scanner.collect fuel
                ⟨offset + (ofCharacters gap).length + (ofCharacters taken).length, left,
                  none⟩ with
            | ok stream =>
              rw [others] at failed
              cases failed
            | error other =>
              rw [others] at failed
              cases failed
              exact inductionHypothesis fromToken.pass others

end Token

open Grammar
open Token (Delimits)
open Text (placeAfter Boundary Precedes)

/-- The location of whole characters has the places of their two ends. -/
theorem Source.span_eq (s : Source) {text : Text} {start stop : Nat}
    (delimits : Delimits text start stop) :
    s.span start stop =
      ⟨s.name, (s.lineColumn start).1, (s.lineColumn start).2, (s.lineColumn stop).1,
      (s.lineColumn stop).2⟩ := by
  have last : max (start : Int) stop = stop := max_eq_right (Int.ofNat_le.mpr delimits.ordered)
  simp only [span, last]

/-- The places of boundaries grow with them. -/
theorem Source.lineColumn_precedes (name : Text) {content : Text} {first second : Nat}
    (isFirst : Boundary content first)
    (isSecond : Boundary content second) (earlier : first < second) :
    Precedes ((ofText name content).lineColumn first)
      ((ofText name content).lineColumn second) := by
  have inside (offset : Nat) (boundary : Boundary content offset) :
      (max 0 (min (offset : Int) content.length)).toNat = offset := by
    have within := boundary.within
    omega
  rw [lineColumn_eq, lineColumn_eq, inside first isFirst, inside second isSecond]
  exact isFirst.precedes isSecond earlier

/-- The error is located at whole characters of the text. One that is not about a failure
to read a token is located at a token, and has its text. -/
def ParseError.Located (file text : Text) (e : ParseError) : Prop :=
  ∃ start stop : Nat, Delimits text start stop ∧
    (let place (offset : Nat) := (Source.ofText file text).lineColumn offset
     e.location = ⟨file, (place start).1, (place start).2, (place stop).1, (place stop).2⟩) ∧
    ((∃ failure, Token.scan text = .error failure ∧ e.fault = .lexical failure) ∨
      ∃ stream t, Token.scan text = .ok stream ∧ t ∈ stream.tokens ++ [stream.last] ∧
        t.start = start ∧ t.stop = stop ∧
        text.extract start stop = t.written ∧ e.token = t.value)

/-- A failure to read a token is located at whole characters. -/
theorem ParseError.located_lexical (file : Text) {text : Text} {failure : LexError}
    (failed : Token.scan text = .error failure) :
    (ofLexError (.ofText file text) failure).Located file text := by
  have delimits : Delimits text failure.start failure.stop :=
    Token.collect_delimits (.start text) failed
  exact ⟨failure.start, failure.stop, delimits, Source.span_eq _ delimits,
    .inl ⟨failure, failed, rfl⟩⟩

/-- What is reported at a token is located there. -/
theorem ParseError.located_blamed {file text : Text} {stream : Scanner.Stream}
    (scanned : Token.scan text = .ok stream) {limit : Int} {patience : Nat}
    {patient : text.characters.length < patience} {e : SyntaxError}
    (blames : (Scanned.ofScan scanned limit patient).Blames e) {found : ParseError}
    (there : found.location = (Source.ofText file text).span e.start e.stop)
    (sameToken : found.token = e.token) :
    found.Located file text := by
  obtain ⟨t, member, value, start, stop⟩ := blames
  have parts := (Token.scan_iff_parts text stream).mp scanned
  have delimits := parts.delimits (.start text) t member
  have bytes := (parts.tiles (.whole text)).bytes t member
  refine ⟨t.start, t.stop, delimits, ?_, .inr ⟨stream, t, scanned, member, rfl, rfl, bytes,
    sameToken.trans value⟩⟩
  rw [there, start, stop]
  exact Source.span_eq _ delimits

/-- All notices and all errors of a reading are located. -/
theorem Personality.read_located (options : ReadingOptions) (text : Text) :
    (∀ e ∈ (read options text).notices, e.Located options.file text) ∧
      ∀ errors, (read options text).result = .error errors →
        ∀ e ∈ errors, e.Located options.file text := by
  unfold read
  cases scanned : Token.scan text with
  | error failure =>
    constructor
    · intro e member
      cases member
    · rintro _ ⟨⟩ e member
      obtain rfl := List.mem_singleton.mp member
      exact ParseError.located_lexical options.file scanned
  | ok stream =>
    have holds : (Scanned.ofScan scanned options.limit (Nat.lt_succ_self _)).Holds 0 .start :=
      ⟨by simp [Scanned.size_eq, Cursor.start], rfl⟩
    obtain ⟨⟨outcome, after⟩, -, ran⟩ := document_performs .start holds
    have noticed :
        ∀ e ∈ (document ⟨stream.last, options.limit, 0⟩ stream.tokens).events.filterMap
        (Event.notice? (.ofText options.file text)), e.Located options.file text := by
      intro e member
      obtain ⟨event, happened, notice⟩ := List.mem_filterMap.mp member
      cases event with
      | skipped list cause =>
        cases notice
        exact ParseError.located_blamed scanned (ran.concerns _ happened) rfl rfl
      | unknownCondition word => cases notice
      | unknownTrigger word => cases notice
    have outcomes : (document ⟨stream.last, options.limit, 0⟩ stream.tokens).outcome = _ :=
      ran.outcome
    dsimp only
    rw [outcomes]
    generalize List.filterMap _ (document ⟨stream.last, options.limit, 0⟩
      stream.tokens).events = notices at noticed ⊢
    have held : ∀ e ∈ (if options.strict then notices else []),
        e.Located options.file text := by
      split
      · exact noticed
      · exact List.forall_mem_nil _
    generalize (if options.strict then notices else []) = withheld at held ⊢
    refine ⟨noticed, fun errors failed => ?_⟩
    cases outcome with
    | error cause =>
      cases failed
      refine List.forall_mem_append.mpr ⟨held, ?_⟩
      intro e member
      obtain rfl := List.mem_singleton.mp member
      exact ParseError.located_blamed scanned (ran.blames cause rfl) rfl rfl
    | ok personality =>
      dsimp only [Except.map] at failed
      split at failed
      · cases failed
      · cases failed
        exact held

/-- Locations are faithful and unambiguous. The place of any offset, which is found by
halving, is that behind the content up to the offset, moved into the content. Distinct
boundaries of characters have distinct places, and these grow with the boundaries. All
errors and notices of a reading are located at whole characters of the text, and those of
the grammar at a token, which they name. -/
theorem locations_faithful :
    (∀ name content (offset : Int),
      (Source.ofText name content).lineColumnByHalves offset =
      some ((Source.ofText name content).lineColumn offset) ∧
      (Source.ofText name content).lineColumn offset =
        placeAfter (content.take (max 0 (min offset content.length)).toNat)) ∧
    (∀ name content (first second : Nat), Boundary content first → Boundary content second →
      (first < second →
        Precedes ((Source.ofText name content).lineColumn first)
        ((Source.ofText name content).lineColumn second)) ∧
      ((Source.ofText name content).lineColumn first =
      (Source.ofText name content).lineColumn second →
        first = second)) ∧
    ∀ options text, (∀ e ∈ (Personality.read options text).notices,
      e.Located options.file text) ∧
      ∀ errors, (Personality.read options text).result = .error errors →
        ∀ e ∈ errors, e.Located options.file text := by
  refine ⟨fun name content offset => ?place,
    fun name content first second isFirst isSecond => ⟨?grows, ?distinct⟩,
    ?located⟩
  case place =>
    exact ⟨Source.lineColumnByHalves_eq name content offset,
      Source.lineColumn_eq name content offset⟩
  case grows => exact Source.lineColumn_precedes name isFirst isSecond
  case distinct =>
    intro same
    rcases Nat.lt_trichotomy first second with earlier | equal | later
    · exact absurd same (Source.lineColumn_precedes name isFirst isSecond earlier).ne
    · exact equal
    · exact absurd same.symm (Source.lineColumn_precedes name isSecond isFirst later).ne
  case located => exact Personality.read_located

/-- The two bytes of an accented letter are one column, and a document that starts with
one fails at it. -/
theorem locations_faithful_accent : Boundary "cdé" 2 ∧ Boundary "cdé" 4 ∧
    Precedes ((Source.ofText [] "cdé").lineColumn (2 : Nat))
      ((Source.ofText [] "cdé").lineColumn (4 : Nat)) ∧
    ∃ errors, (Personality.read {} "é").result = .error errors ∧ errors ≠ [] ∧ ∀ e ∈ errors,
      e.Located [] "é" := by
  have first : Boundary "cdé" 2 :=
    ⟨[⟨233, [195, 169]⟩], [⟨99, [99]⟩, ⟨100, [100]⟩], by decide, rfl⟩
  have second : Boundary "cdé" 4 :=
    ⟨[], [⟨99, [99]⟩, ⟨100, [100]⟩, ⟨233, [195, 169]⟩], by decide, rfl⟩
  refine ⟨first, second, (locations_faithful.2.1 [] "cdé" 2 4 first second).1 (by decide), ?_⟩
  refine ⟨[⟨.grammatical ⟨.expected .personality ⟨.name, "é", 0, 2⟩, "é", 0, 2⟩,
    ⟨[], 1, 1, 1, 2⟩⟩], ?_, by simp, ?_⟩
  · decide +kernel
  · exact (locations_faithful.2.2 {} "é").2 _ (by decide +kernel)

end Persona
