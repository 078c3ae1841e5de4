import Persona.Json.Printer
import Persona.Json.Reader
import Persona.Proofs.Text.Utf8

/-!
# Strings of JSON read back

A written string reads back as the repaired text. Each character is written as a
piece of its own, by its bytes, by a letter or by its code, and each piece is read
without looking at its neighbours: no code that is written by an escape is half of
a surrogate pair.
-/

namespace Persona.Json

/-- The written form is read as these bytes, wherever it stands in a string. -/
def Spells (written bytes : Text) : Prop :=
  ∃ pieces : List Piece,
    (∀ seen rest, readPieces seen (written ++ rest) =
      readPieces (pieces.reverse ++ seen) rest) ∧
      ∀ following, assemble (pieces ++ following) = bytes ++ assemble following

namespace Spells

/-- Nothing spells nothing. -/
theorem nil : Spells [] [] := ⟨[], fun _ _ => rfl, fun _ => rfl⟩

/-- Written forms may be put together. -/
theorem append {first second bytes more : Text} (spells : Spells first bytes)
    (following : Spells second more) :
    Spells (first ++ second) (bytes ++ more) := by
  obtain ⟨before, readsBefore, assemblesBefore⟩ := spells
  obtain ⟨after, readsAfter, assemblesAfter⟩ := following
  refine ⟨before ++ after, fun seen rest => ?_, fun following => ?_⟩
  · rw [List.append_assoc, readsBefore, readsAfter, List.reverse_append, List.append_assoc]
  · rw [List.append_assoc, assemblesBefore, assemblesAfter, List.append_assoc]

/-- A byte that needs no escape stands for itself. -/
theorem byte {b : UInt8} (visible : 0x20 ≤ b) (noQuote : b ≠ 34) (noBackslash : b ≠ 92) :
    Spells [b] [b] := by
  refine ⟨[.byte b], fun seen rest => ?_, fun _ => rfl⟩
  have notControl : (decide (b < 0x20) || decide (b = 92)) = false := by
    simpa [noBackslash, UInt8.not_lt] using visible
  rw [List.singleton_append, readPieces.eq_def]
  split
  · rename_i same
    exact absurd (List.cons.inj same).1 noQuote
  · rename_i same
    exact absurd (List.cons.inj same).1 noBackslash
  · rename_i same
    exact absurd (List.cons.inj same).1 noBackslash
  · rename_i same
    obtain ⟨rfl, rfl⟩ := List.cons.inj same
    rw [if_neg (by simp [notControl])]
    rfl
  · rename_i same
    cases same

/-- Bytes that need no escape stand for themselves. -/
theorem bytes {text : Text} (plain : ∀ b ∈ text, 0x20 ≤ b ∧ b ≠ 34 ∧ b ≠ 92) :
    Spells text text := by
  induction text with
  | nil => exact nil
  | cons b text inductionHypothesis =>
    obtain ⟨visible, noQuote, noBackslash⟩ := plain b List.mem_cons_self
    exact (byte visible noQuote noBackslash).append
      (inductionHypothesis fun c later => plain c (List.mem_cons_of_mem b later))

/-- A letter behind a backslash. -/
theorem letter (name value : UInt8) (known : letterEscape? name = some value) :
    Spells [92, name] [value] := by
  refine ⟨[.byte value], fun seen rest => ?_, fun _ => rfl⟩
  have notCode : name ≠ 117 := by
    rintro rfl
    cases known
  rw [readPieces.eq_def]
  split
  · rename_i same
    cases same
  · rename_i same
    exact absurd (List.cons.inj (List.cons.inj same).2).1 notCode
  · rename_i same
    obtain ⟨rfl, rfl⟩ := List.cons.inj (List.cons.inj same).2
    simp [known]
  · rename_i notLetter same
    obtain ⟨rfl, rfl⟩ := List.cons.inj same
    exact (notLetter name rest rfl rfl).elim
  · rename_i same
    cases same

/-- The digits of a code give the code back. -/
theorem hexQuad?_hex {code : Nat} (small : code < 0x10000) :
    ∃ a b c d, Text.hex 4 code = [a, b, c, d] ∧ hexQuad? a b c d = some code := by
  have digit : ∀ n < 16, hexValue? (Text.hexDigit n) = some n := by decide
  refine ⟨Text.hexDigit (code / 16 / 16 / 16 % 16), Text.hexDigit (code / 16 / 16 % 16),
    Text.hexDigit (code / 16 % 16), Text.hexDigit (code % 16), rfl, ?_⟩
  simp only [hexQuad?, digit _ (Nat.mod_lt _ (by decide : 0 < 16)), Option.bind_eq_bind,
    Option.bind_some, Option.pure_def, Option.some.injEq]
  omega

/-- A unit below the surrogates is a code point, whatever follows it. -/
theorem assemble_unit {code : Nat} (small : code < 0xD800) (following : List Piece) :
    assemble (.unit code :: following) = Character.encode code ++ assemble following := by
  match following with
  | [] => simp [assemble]
  | .byte next :: rest => simp [assemble]
  | .unit low :: rest =>
    have noPair : isPair code low = false := by
      have below : ¬ 0xD800 ≤ code := by omega
      simp [isPair, below]
    rw [assemble, if_neg (by simp [noPair])]

/-- A character by its code. -/
theorem code {code : Nat} (small : code < 0xD800) :
    Spells (codeEscape code) (Character.encode code) := by
  obtain ⟨a, b, c, d, digits, value⟩ := hexQuad?_hex (show code < 0x10000 by omega)
  refine ⟨[.unit code], fun seen rest => ?_, fun following => assemble_unit small following⟩
  have spelled : codeEscape code ++ rest = 92 :: 117 :: a :: b :: c :: d :: rest := by
    rw [codeEscape, digits]
    rfl
  rw [spelled, readPieces, value]
  rfl

end Spells

/-- The ways in which a character is written: by a letter behind a backslash, by its code,
or as it is. -/
inductive Escapes (c : Character) : Text → Prop where
  | letter {name value : UInt8} (known : letterEscape? name = some value)
      (same : Character.encode c.code = [value]) :
      Escapes c [92, name]
  | code (small : c.code < 0xD800) : Escapes c (codeEscape c.code)
  | plain (visible : 0x20 ≤ c.code) (noQuote : c.code ≠ 34) (noBackslash : c.code ≠ 92) :
      Escapes c c.bytes

/-- Either of two written forms. -/
theorem Escapes.ite {c : Character} {condition : Prop} [Decidable condition]
    {first second : Text}
    (holds : condition → Escapes c first) (fails : ¬ condition → Escapes c second) :
    Escapes c (if condition then first else second) := by
  split
  · exact holds ‹_›
  · exact fails ‹_›

/-- A decodable character is written in one of these ways. -/
theorem writeCharacter_escapes {c : Character} (decodable : c.isUndecodable = false) :
    Escapes c (writeCharacter .answer c) := by
  have letter (code : Nat) (name value : UInt8) (is : c.code = code)
      (known : letterEscape? name = some value)
      (encoded : Character.encode code = [value]) : Escapes c [92, name] :=
        .letter known (is ▸ encoded)
  rw [writeCharacter, if_neg (by simp [decodable])]
  refine .ite (fun quote => letter 34 34 34 quote rfl rfl) fun noQuote => ?_
  refine .ite (fun backslash => letter 92 92 92 backslash rfl rfl) fun noBackslash => ?_
  refine .ite (fun lineFeed => letter 10 110 10 lineFeed rfl rfl) fun _ => ?_
  refine .ite (fun carriageReturn => letter 13 114 13 carriageReturn rfl rfl) fun _ => ?_
  refine .ite (fun tab => letter 9 116 9 tab rfl rfl) fun _ => ?_
  refine .ite (fun backspace => letter 8 98 8 (by simpa [Spelling.answer] using backspace)
    rfl rfl) fun _ => ?_
  refine .ite (fun formFeed => letter 12 102 12 (by simpa [Spelling.answer] using formFeed)
    rfl rfl) fun _ => ?_
  refine .ite (fun control => .code (by omega)) fun visible => ?_
  refine .ite (fun embedded => ?_) fun _ => ?_
  · have listed : (c.code = 60 ∨ c.code = 62) ∨ c.code = 38 := by
      simpa [Spelling.answer] using embedded
    exact .code (by omega)
  refine .ite (fun separator => ?_) fun _ => .plain (Nat.not_lt.mp visible) noQuote noBackslash
  have listed : c.code = 0x2028 ∨ c.code = 0x2029 := by simpa using separator
  exact .code (by omega)

/-- The bytes of a character that needs no escape need none. -/
theorem Escapes.plain_bytes {c : Character} (formed : Character.Sequence c)
    (visible : 0x20 ≤ c.code)
    (noQuote : c.code ≠ 34) (noBackslash : c.code ≠ 92) : ∀ b ∈ c.bytes, 0x20 ≤ b ∧ b ≠ 34 ∧
    b ≠ 92 := by
  intro b inBytes
  rcases formed.ascii_or_above with ⟨a, -, rfl⟩ | ⟨-, above⟩
  · obtain rfl : b = a := by simpa using inBytes
    refine ⟨UInt8.le_iff_toNat_le.mpr visible, ?_, ?_⟩
    · rintro rfl
      exact noQuote rfl
    · rintro rfl
      exact noBackslash rfl
  · have large : 0x80 ≤ b.toNat := UInt8.le_iff_toNat_le.mp (above b inBytes)
    refine ⟨UInt8.le_iff_toNat_le.mpr (Nat.le_trans (by decide) large), ?_, ?_⟩
    · rintro rfl
      exact absurd large (by decide)
    · rintro rfl
      exact absurd large (by decide)

/-- A written character reads back as its repaired bytes. -/
theorem spells_writeCharacter {text : Text} {c : Character} (member : c ∈ text.characters) :
    Spells (writeCharacter .answer c) c.repaired.bytes := by
  rcases Text.mem_characters member with ⟨b, -, rfl⟩ | formed
  · have plain : ∀ b ∈ Character.encode Character.replacement, 0x20 ≤ b ∧ b ≠ 34 ∧
        b ≠ 92 := by decide +kernel
    exact Spells.bytes plain
  rw [formed.repaired]
  have escapes := writeCharacter_escapes formed.decodable
  generalize writeCharacter .answer c = written at escapes ⊢
  cases escapes with
  | @letter name value known same =>
    rw [← formed.encode_code, same]
    exact Spells.letter name value known
  | code small =>
    rw [← formed.encode_code]
    exact Spells.code small
  | plain visible noQuote noBackslash =>
    exact Spells.bytes (Escapes.plain_bytes formed visible noQuote noBackslash)

/-- The written characters of a text read back as the repaired text. -/
theorem spells_writeCharacters (text : Text) :
    Spells (text.characters.flatMap (writeCharacter .answer)) text.toUtf8 := by
  have listed (cs : List Character) (inText : ∀ c ∈ cs, c ∈ text.characters) :
      Spells (cs.flatMap (writeCharacter .answer))
        (Text.ofCharacters (cs.map Character.repaired)) := by
    induction cs with
    | nil => exact Spells.nil
    | cons c cs inductionHypothesis =>
      exact (spells_writeCharacter (inText c List.mem_cons_self)).append
        (inductionHypothesis fun d later => inText d (List.mem_cons_of_mem c later))
  rw [Text.toUtf8_eq]
  exact listed text.characters fun _ member => member

/-- A written string reads back as the repaired text, and what follows it is left. -/
theorem readQuoted?_writeString (text rest : Text) :
    readQuoted? (writeString .answer text ++ rest) = some (text.toUtf8, rest) := by
  obtain ⟨pieces, reads, assembles⟩ := spells_writeCharacters text
  have opened : writeString .answer text ++ rest =
      34 :: (text.characters.flatMap (writeCharacter .answer) ++ (34 :: rest)) := by
    simp [writeString, show Text.ofString "\"" = [34] from rfl]
  have closed : readPieces (pieces.reverse ++ []) (34 :: rest) =
      some (pieces.reverse, rest) := by
    rw [List.append_nil, readPieces]
  have whole : assemble pieces = text.toUtf8 := by
    have assembled := assembles []
    simpa [assemble] using assembled
  rw [opened, readQuoted?, reads, closed]
  simp [whole, Text.toUtf8_toUtf8]

end Persona.Json
