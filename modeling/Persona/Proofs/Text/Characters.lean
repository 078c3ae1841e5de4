import Persona.Text.Character

/-!
# How characters sit in a text

Reading a text as characters loses nothing: their bytes concatenate to the text.
An ASCII byte is always a character of its own, so a text may be cut in front of
one without changing how either side is read. A well-formed sequence is read alike
whatever follows it; a byte that starts none may not be, which is why only the
well-formed characters of a text can be put back one by one.
-/

namespace Persona

namespace Character

/-- The well-formed sequences of one to four bytes, with the code points they spell. -/
inductive Sequence : Character → Prop
  | one (a : UInt8) (small : a < 0x80) : Sequence ⟨a.toNat, [a]⟩
  | two (a b : UInt8) (low : 0xC2 ≤ a) (high : a < 0xE0) (second : isContinuation b = true) :
      Sequence ⟨a.toNat % 32 * 64 + payload b, [a, b]⟩
  | three (a b c : UInt8) (low : 0xE0 ≤ a) (high : a < 0xF0)
      (second : isSecondAfter a b = true)
      (third : isContinuation c = true) :
      Sequence ⟨(a.toNat % 16 * 64 + payload b) * 64 + payload c, [a, b, c]⟩
  | four (a b c d : UInt8) (low : 0xF0 ≤ a) (high : a < 0xF5)
      (second : isSecondAfter a b = true)
      (third : isContinuation c = true) (fourth : isContinuation d = true) :
      Sequence ⟨((a.toNat % 8 * 64 + payload b) * 64 + payload c) * 64 + payload d,
        [a, b, c, d]⟩

/-- A byte that is read is either undecodable, and then not ASCII, or starts a well-formed
sequence. -/
theorem read_cases (first : UInt8) (rest : Text) :
    (read first rest = undecodable first ∧ 0x80 ≤ first) ∨ Sequence (read first rest) := by
  by_cases small : first < 0x80
  · right
    simpa only [read, small, if_true] using Sequence.one first small
  have large : 0x80 ≤ first := UInt8.not_lt.mp small
  unfold read
  rw [if_neg small]
  split
  · exact .inl ⟨rfl, large⟩
  rename_i notOverlong
  split
  · rename_i shorter
    split
    · split
      · exact .inr (.two _ _ (UInt8.not_lt.mp notOverlong) shorter ‹_›)
      · exact .inl ⟨rfl, large⟩
    · exact .inl ⟨rfl, large⟩
  rename_i notTwo
  split
  · rename_i shorter
    split
    · split
      · rename_i continued
        obtain ⟨second, third⟩ := Bool.and_eq_true_iff.mp continued
        exact .inr (.three _ _ _ (UInt8.not_lt.mp notTwo) shorter second third)
      · exact .inl ⟨rfl, large⟩
    · exact .inl ⟨rfl, large⟩
  rename_i notThree
  split
  · rename_i shorter
    split
    · split
      · rename_i continued
        obtain ⟨continued, fourth⟩ := Bool.and_eq_true_iff.mp continued
        obtain ⟨second, third⟩ := Bool.and_eq_true_iff.mp continued
        exact .inr (.four _ _ _ _ (UInt8.not_lt.mp notThree) shorter second third fourth)
      · exact .inl ⟨rfl, large⟩
    · exact .inl ⟨rfl, large⟩
  · exact .inl ⟨rfl, large⟩

/-- The bytes of a character that was read are the first ones of the text. -/
theorem read_isPrefix (first : UInt8) (rest : Text) :
    (read first rest).bytes <+: first :: rest := by
  unfold read undecodable
  repeat' split
  all_goals simp [List.prefix_cons_iff]

/-- Every character has a byte, so reading always moves on. -/
theorem read_width_pos (first : UInt8) (rest : Text) : 0 < (read first rest).width := by
  unfold read undecodable width
  repeat' split
  all_goals simp

/-- The range of a continuation byte, in numbers. -/
theorem continuation_range {b : UInt8} (continued : isContinuation b = true) :
    128 ≤ b.toNat ∧ b.toNat ≤ 191 := by
  simpa [isContinuation, UInt8.le_iff_toNat_le] using continued

/-- The range of a second byte, in numbers: that of a continuation byte, narrowed behind
four of the first bytes. -/
theorem second_range {first second : UInt8} (narrowed : isSecondAfter first second = true) :
    128 ≤ second.toNat ∧ second.toNat ≤ 191 ∧ (first.toNat = 0xE0 → 160 ≤ second.toNat) ∧
      (first.toNat = 0xED → second.toNat ≤ 159) ∧ (first.toNat = 0xF0 → 144 ≤ second.toNat) ∧
      (first.toNat = 0xF4 → second.toNat ≤ 143) := by
  have sameByte (n : UInt8) : first = n ↔ first.toNat = n.toNat := UInt8.toNat_inj.symm
  unfold isSecondAfter isContinuation at narrowed
  simp only [sameByte, UInt8.le_iff_toNat_le, UInt8.reduceToNat] at narrowed
  repeat' split at narrowed
  all_goals
    simp only [Bool.and_eq_true, decide_eq_true_eq] at narrowed
    omega

/-- What follows an ASCII byte never belongs to the character before it: no continuation
byte is ASCII, so the reading is the same with and without it. -/
theorem read_append (first : UInt8) (rest more : Text)
    (boundary : ∀ b ∈ more.head?, b < 0x80) :
    read first (rest ++ more) = read first rest := by
  cases more with
  | nil => rw [List.append_nil]
  | cons next others =>
    have ascii : next < 0x80 := boundary next rfl
    have noContinuation : isContinuation next = false := by
      simp [isContinuation]
      grind
    have noSecond : isSecondAfter first next = false := by
      rw [Bool.eq_false_iff]
      intro narrowed
      have := (second_range narrowed).1
      have := UInt8.lt_iff_toNat_lt.mp ascii
      simp at *
      omega
    -- A sequence has at most three bytes after the first, so four lengths of `rest` are
    -- all there is.
    rcases rest with _ | ⟨b, _ | ⟨c, _ | ⟨d, rest⟩⟩⟩
    · cases others with
      | nil => simp [read, noContinuation]
      | cons e others => cases others <;> simp [read, noContinuation, noSecond]
    · cases others <;> simp [read, noContinuation]
    · simp [read, noContinuation]
    · rfl

/-- A well-formed sequence is read as itself, whatever follows it. -/
theorem Sequence.read_bytes {c : Character} (formed : Sequence c) :
    ∃ first tail, c.bytes = first :: tail ∧ ∀ more, read first (tail ++ more) = c := by
  cases formed with
  | one a small => exact ⟨a, [], rfl, fun more => by simp [read, small]⟩
  | two a b low high second =>
    refine ⟨a, [b], rfl, fun more => ?_⟩
    have large : ¬ a < 0x80 := by grind
    have longer : ¬ a < 0xC2 := by grind
    simp [read, large, longer, high, second]
  | three a b c low high second third =>
    refine ⟨a, [b, c], rfl, fun more => ?_⟩
    have large : ¬ a < 0x80 := by grind
    have longer : ¬ a < 0xC2 := by grind
    have notTwo : ¬ a < 0xE0 := by grind
    simp [read, large, longer, notTwo, high, second, third]
  | four a b c d low high second third fourth =>
    refine ⟨a, [b, c, d], rfl, fun more => ?_⟩
    have large : ¬ a < 0x80 := by grind
    have longer : ¬ a < 0xC2 := by grind
    have notTwo : ¬ a < 0xE0 := by grind
    have notThree : ¬ a < 0xF0 := by grind
    simp [read, large, longer, notTwo, notThree, high, second, third, fourth]

/-- Outside ASCII a well-formed sequence has no ASCII byte and no ASCII code point. -/
theorem Sequence.ascii_or_above {c : Character} (formed : Sequence c) :
    (∃ b : UInt8, b < 0x80 ∧ c = ⟨b.toNat, [b]⟩) ∨
    (0x80 ≤ c.code ∧ ∀ b ∈ c.bytes, 0x80 ≤ b) := by
  cases formed with
  | one a small => exact .inl ⟨a, small, rfl⟩
  | two a b low high second =>
    right
    have secondRange := continuation_range second
    simp [payload, UInt8.le_iff_toNat_le, UInt8.lt_iff_toNat_lt] at *
    omega
  | three a b c low high second third =>
    right
    have secondRange := second_range second
    have thirdRange := continuation_range third
    simp [payload, UInt8.le_iff_toNat_le, UInt8.lt_iff_toNat_lt] at *
    omega
  | four a b c d low high second third fourth =>
    right
    have secondRange := second_range second
    have thirdRange := continuation_range third
    have fourthRange := continuation_range fourth
    simp [payload, UInt8.le_iff_toNat_le, UInt8.lt_iff_toNat_lt] at *
    omega

/-- The code point of a well-formed sequence is encoded by its bytes. -/
theorem Sequence.encode_code {c : Character} (formed : Sequence c) :
    encode c.code = c.bytes := by
  have byteOf {n : Nat} {b : UInt8} (same : n = b.toNat) : UInt8.ofNat n = b := by simp [same]
  cases formed with
  | one a small =>
    have bound : a.toNat < 128 := UInt8.lt_iff_toNat_lt.mp small
    simp [encode, bound]
  | two a b low high second =>
    have secondRange := continuation_range second
    simp only [UInt8.le_iff_toNat_le, UInt8.lt_iff_toNat_lt, UInt8.reduceToNat, payload] at *
    unfold encode
    rw [if_neg (by omega), if_pos (by omega)]
    simp only [List.cons.injEq, and_true]
    exact ⟨byteOf (by omega), byteOf (by omega)⟩
  | three a b c low high second third =>
    have secondRange := second_range second
    have thirdRange := continuation_range third
    simp only [UInt8.le_iff_toNat_le, UInt8.lt_iff_toNat_lt, UInt8.reduceToNat, payload] at *
    unfold encode
    rw [if_neg (by omega), if_neg (by omega), if_neg (by simp; omega), if_pos (by omega)]
    simp only [List.cons.injEq, and_true]
    exact ⟨byteOf (by omega), byteOf (by omega), byteOf (by omega)⟩
  | four a b c d low high second third fourth =>
    have secondRange := second_range second
    have thirdRange := continuation_range third
    have fourthRange := continuation_range fourth
    simp only [UInt8.le_iff_toNat_le, UInt8.lt_iff_toNat_lt, UInt8.reduceToNat, payload] at *
    unfold encode
    rw [if_neg (by omega), if_neg (by omega), if_neg (by simp; omega), if_neg (by omega)]
    simp only [List.cons.injEq, and_true]
    exact ⟨byteOf (by omega), byteOf (by omega), byteOf (by omega), byteOf (by omega)⟩

/-- A character for U+FFFD that is one byte wide is no well-formed sequence. -/
theorem Sequence.decodable {c : Character} (formed : Sequence c) :
    c.isUndecodable = false := by
  cases formed with
  | one a small =>
    have := UInt8.lt_iff_toNat_lt.mp small
    simp [isUndecodable, replacement] at *
    omega
  | two a b low high second => simp [isUndecodable]
  | three a b c low high second third => simp [isUndecodable]
  | four a b c d low high second third fourth => simp [isUndecodable]

end Character

namespace Text

open Character (Sequence read_width_pos read_isPrefix)

/-- Reading after some pending bytes is reading without them. -/
theorem charactersAfter_eq_drop (pending : Nat) (text : Text) :
    charactersAfter pending text = characters (text.drop pending) := by
  induction text generalizing pending with
  | nil => cases pending <;> rfl
  | cons first rest inductionHypothesis =>
    cases pending with
    | zero => rfl
    | succ pending =>
      simpa only [charactersAfter, List.drop_succ_cons] using inductionHypothesis pending

/-- The first character of a text, and the characters of what its bytes leave. -/
theorem characters_cons (first : UInt8) (rest : Text) :
    characters (first :: rest) = Character.read first rest ::
      characters ((first :: rest).drop (Character.read first rest).width) := by
  obtain ⟨width, same⟩ : ∃ n, (Character.read first rest).width = n + 1 :=
    ⟨_, (Nat.succ_pred_eq_of_pos (read_width_pos first rest)).symm⟩
  change Character.read first rest :: charactersAfter ((Character.read first rest).width -
    1) rest = _
  rw [charactersAfter_eq_drop, same, List.drop_succ_cons, Nat.add_sub_cancel]

/-- Induction over a text one character at a time: what is left is the text without the
bytes of its first character, which is shorter. -/
@[elab_as_elim]
theorem characterInduction {motive : Text → Prop} (nil : motive [])
    (cons : ∀ first rest,
      motive ((first :: rest).drop (Character.read first rest).width) → motive (first :: rest))
    (text : Text) : motive text := by
  induction size : text.length using Nat.strongRecOn generalizing text with
  | ind size inductionHypothesis =>
    cases text with
    | nil => exact nil
    | cons first rest =>
      refine cons first rest (inductionHypothesis _ ?_ _ rfl)
      have moves := read_width_pos first rest
      simp only [List.length_drop, List.length_cons] at *
      omega

/-- An ASCII byte is a character of its own. -/
theorem characters_ascii (b : UInt8) (rest : Text) (small : b < 0x80) :
    characters (b :: rest) = ⟨b.toNat, [b]⟩ :: characters rest := by
  have single : Character.read b rest = ⟨b.toNat, [b]⟩ := by simp [Character.read, small]
  rw [characters_cons, single]
  rfl

/-- The characters of a text concatenate to it. -/
theorem ofCharacters_characters (text : Text) : ofCharacters text.characters = text := by
  induction text using characterInduction with
  | nil => rfl
  | cons first rest inductionHypothesis =>
    obtain ⟨left, split⟩ := read_isPrefix first rest
    rw [characters_cons, ofCharacters, List.flatMap_cons]
    simp only [ofCharacters] at inductionHypothesis
    rw [inductionHypothesis, ← split, Character.width, List.drop_left]

/-- Every character of a text is a well-formed sequence or a single byte above ASCII that
starts none. -/
theorem mem_characters {text : Text} {c : Character} (member : c ∈ text.characters) :
    (∃ b : UInt8, 0x80 ≤ b ∧ c = Character.undecodable b) ∨ Sequence c := by
  induction text using characterInduction with
  | nil => cases member
  | cons first rest inductionHypothesis =>
    rw [characters_cons, List.mem_cons] at member
    rcases member with rfl | later
    · rcases Character.read_cases first rest with ⟨lone, large⟩ | formed
      · exact .inl ⟨first, large, lone⟩
      · exact .inr formed
    · exact inductionHypothesis later

/-- A character with an ASCII code point is an ASCII byte of the text. -/
theorem ascii_of_mem_characters {text : Text} {c : Character} (member : c ∈ text.characters)
    (small : c.code < 0x80) : ∃ b ∈ text, b < 0x80 ∧ c = ⟨b.toNat, [b]⟩ := by
  rcases mem_characters member with ⟨b, -, rfl⟩ | formed
  · simp [Character.undecodable, Character.replacement] at small
  rcases formed.ascii_or_above with ⟨b, ascii, rfl⟩ | ⟨large, -⟩
  · refine ⟨b, ?_, ascii, rfl⟩
    rw [← ofCharacters_characters text]
    exact List.mem_flatMap.mpr ⟨_, member, List.mem_singleton_self b⟩
  · omega

/-- ASCII bytes are characters of their own in front of any text. -/
theorem characters_append_ascii {text : Text} (ascii : ∀ b ∈ text, b < 0x80) (more : Text) :
    characters (text ++ more) = text.map (fun b => ⟨b.toNat, [b]⟩) ++ more.characters := by
  induction text with
  | nil => rfl
  | cons b text inductionHypothesis =>
    have small : b < 0x80 := ascii b List.mem_cons_self
    rw [List.cons_append, characters_ascii b _ small,
      inductionHypothesis fun c member => ascii c (List.mem_cons_of_mem b member),
      List.map_cons, List.cons_append]

/-- The characters of an ASCII text are its bytes. -/
theorem characters_of_ascii {text : Text} (ascii : ∀ b ∈ text, b < 0x80) :
    text.characters = text.map fun b => ⟨b.toNat, [b]⟩ := by
  have whole := characters_append_ascii ascii []
  rw [List.append_nil] at whole
  rw [whole]
  exact List.append_nil _

/-- A text may be cut in front of an ASCII byte, or at its end, without changing how
either part is read. -/
theorem characters_append (text more : Text) (boundary : ∀ b ∈ more.head?, b < 0x80) :
    characters (text ++ more) = text.characters ++ more.characters := by
  induction text using characterInduction with
  | nil => rfl
  | cons first rest inductionHypothesis =>
    have same := Character.read_append first rest more boundary
    have inside : (Character.read first rest).width ≤ (first :: rest).length :=
      (read_isPrefix first rest).length_le
    rw [List.cons_append, characters_cons, characters_cons, same, ← List.cons_append,
      List.drop_append_of_le_length inside, inductionHypothesis, List.cons_append]

/-- Well-formed sequences put one after the other are read back as they were, whatever
follows them. -/
theorem characters_ofCharacters (cs : List Character) (more : Text)
    (formed : ∀ c ∈ cs, Sequence c) :
    characters (ofCharacters cs ++ more) = cs ++ more.characters := by
  induction cs with
  | nil => rfl
  | cons c cs inductionHypothesis =>
    obtain ⟨first, tail, spelled, readsBack⟩ := (formed c List.mem_cons_self).read_bytes
    have others : ∀ c ∈ cs, Sequence c := fun d member =>
      formed d (List.mem_cons_of_mem c member)
    have bytes : ofCharacters (c :: cs) ++ more =
        first :: (tail ++ (ofCharacters cs ++ more)) := by
      simp [ofCharacters, spelled]
    have left : (first :: (tail ++ (ofCharacters cs ++ more))).drop c.width =
        ofCharacters cs ++ more := by
      simp [Character.width, spelled]
    rw [bytes, characters_cons, readsBack, left, inductionHypothesis others, List.cons_append]

end Text

end Persona
