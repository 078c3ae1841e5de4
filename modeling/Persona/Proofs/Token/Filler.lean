import Persona.Proofs.Token.Spelling

/-!
# What stands between tokens

Between two tokens stand blanks, line comments up to their line feeds, and block
comments, in which further comments may be nested. This module states that without
looking at how it is skipped, and shows that the scanner skips exactly that: what it
skips is filler, and in front of anything it skips all of a filler.

Only behind the last token may a line comment go without its line feed. So being filler
depends on whether something follows.
-/

namespace Persona.Token

open Character (isSeparator)

/-- What is left of a block comment behind its opening: characters and further comments,
up to the end of the comment. -/
inductive CommentTail : List Character → Prop where
  | closing {star slash : Character} (isStar : star.code = 42) (isSlash : slash.code = 47) :
      CommentTail [star, slash]
  | nested {slash star : Character} {inner rest : List Character}
      (isSlash : slash.code = 47) (isStar : star.code = 42)
      (comment : CommentTail inner) (others : CommentTail rest) :
        CommentTail (slash :: star :: (inner ++ rest))
  | other {c : Character} {rest : List Character}
      (plain : ∀ d ∈ rest.head?, ¬ (c.code = 47 ∧ d.code = 42) ∧ ¬ (c.code = 42 ∧ d.code = 47))
      (others : CommentTail rest) : CommentTail (c :: rest)

/-- Blanks and comments. A line comment may go without a line feed if nothing follows,
which `final` says. -/
inductive Filler (final : Prop) : List Character → Prop where
  | nothing : Filler final []
  | blank {c : Character} {rest : List Character} (isBlank : c.code ∈ [9, 10, 11, 12, 13, 32])
      (others : Filler final rest) : Filler final (c :: rest)
  | line {slash second feed : Character} {content rest : List Character}
      (isSlash : slash.code = 47)
      (isSecond : second.code = 47) (within : ∀ c ∈ content, c.code ≠ 10)
        (isFeed : feed.code = 10)
      (others : Filler final rest) :
        Filler final (slash :: second :: (content ++ feed :: rest))
  | block {slash star : Character} {inner rest : List Character} (isSlash : slash.code = 47)
      (isStar : star.code = 42)
      (comment : CommentTail inner) (others : Filler final rest) :
        Filler final (slash :: star :: (inner ++ rest))
  | unended {slash second : Character} {content : List Character} (isFinal : final)
      (isSlash : slash.code = 47)
      (isSecond : second.code = 47) (within : ∀ c ∈ content, c.code ≠ 10) :
        Filler final (slash :: second :: content)

/-- The blanks between tokens are six. -/
theorem isSeparator_iff (code : Nat) : isSeparator code = true ↔
    code ∈ [9, 10, 11, 12, 13, 32] := by
  simp only [isSeparator, Bool.or_eq_true, Bool.and_eq_true, decide_eq_true_eq,
    List.mem_cons, List.not_mem_nil, or_false]
  omega

/-- A comment that is open has something left of it. -/
theorem CommentTail.ne_nil {rest : List Character} (comment : CommentTail rest) :
    rest ≠ [] := by
  cases comment <;> simp

variable {final : Prop}

/-- More filler may stand behind filler that ends its comments. -/
theorem Filler.append {first second : List Character} (start : Filler False first)
    (continued : Filler final second) :
    Filler final (first ++ second) := by
  induction start with
  | nothing => exact continued
  | blank isBlank _ inductionHypothesis => exact .blank isBlank inductionHypothesis
  | line isSlash isSecond within isFeed _ inductionHypothesis =>
    simpa using Filler.line isSlash isSecond within isFeed inductionHypothesis
  | block isSlash isStar comment _ inductionHypothesis =>
    simpa using Filler.block isSlash isStar comment inductionHypothesis
  | unended impossible => exact impossible.elim

/-- What is filler though something may follow is filler. -/
theorem Filler.imp {other : Prop} {cs : List Character} (implies : final → other)
    (filler : Filler final cs) :
    Filler other cs := by
  induction filler with
  | nothing => exact .nothing
  | blank isBlank _ inductionHypothesis => exact .blank isBlank inductionHypothesis
  | line isSlash isSecond within isFeed _ inductionHypothesis =>
    exact .line isSlash isSecond within isFeed inductionHypothesis
  | block isSlash isStar comment _ inductionHypothesis =>
    exact .block isSlash isStar comment inductionHypothesis
  | unended isFinal isSlash isSecond within =>
    exact .unended (implies isFinal) isSlash isSecond within

/-- Characters that end with an ASCII character if there are any. -/
def EndsAscii (cs : List Character) : Prop := ∀ c ∈ cs.getLast?, c.code < 0x80

/-- Two parts that end with ASCII characters. -/
theorem EndsAscii.append {first second : List Character} (start : EndsAscii first)
    (continued : EndsAscii second) :
    EndsAscii (first ++ second) := by
  intro c last
  rw [List.getLast?_append, Option.mem_def, Option.or_eq_some_iff] at last
  rcases last with later | ⟨-, earlier⟩
  · exact continued c later
  · exact start c earlier

/-- Anything that ends with this ASCII character. -/
theorem EndsAscii.concat {last : Character} (small : last.code < 0x80)
    (cs : List Character) : EndsAscii (cs ++ [last]) := by
  intro c isLast
  obtain rfl : last = c := by simpa using isLast
  exact small

/-- What is left of a comment ends with an ASCII character. -/
theorem CommentTail.endsAscii {rest : List Character} (comment : CommentTail rest) :
    EndsAscii rest := by
  induction comment with
  | @closing star slash _ isSlash => exact .concat (by omega) [star]
  | @nested slash star inner rest isSlash isStar _ _ innerEnds restEnds =>
    exact EndsAscii.append (.append (.concat (by omega) [slash]) innerEnds) restEnds
  | other _ others inductionHypothesis =>
    intro c last
    rw [List.getLast?_cons_of_ne_nil others.ne_nil] at last
    exact inductionHypothesis c last

/-- Filler that ends its comments ends with an ASCII character. -/
theorem Filler.endsAscii {cs : List Character} (filler : Filler False cs) : EndsAscii cs := by
  induction filler with
  | nothing => simp [EndsAscii]
  | blank isBlank _ inductionHypothesis =>
    simp only [List.mem_cons, List.not_mem_nil, or_false] at isBlank
    exact EndsAscii.append (.concat (by omega) []) inductionHypothesis
  | @line slash second feed content rest _ _ _ isFeed _ inductionHypothesis =>
    simpa using EndsAscii.append (.concat (by omega) (slash :: second :: content))
      inductionHypothesis
  | @block slash star inner rest isSlash isStar comment _ inductionHypothesis =>
    exact EndsAscii.append (.append (.concat (by omega) [slash]) comment.endsAscii)
      inductionHypothesis
  | unended impossible => exact impossible.elim

/-- What ends the block comments that are open, one inside the other, and the filler
behind them. -/
def Ends (final : Prop) : (depth : Nat) → List Character → Prop
  | 0, cs => Filler final cs
  | depth + 1, cs =>
    ∃ comment rest, cs = comment ++ rest ∧ CommentTail comment ∧ Ends final depth rest

/-- What completes the filler that a gap has started. -/
def Completes (final : Prop) : Gap → List Character → Prop
  | .open, cs => Filler final cs
  | .line, cs =>
    (∃ content feed rest, cs = content ++ feed :: rest ∧ (∀ c ∈ content, c.code ≠ 10) ∧
      feed.code = 10 ∧
      Filler final rest) ∨ final ∧ ∀ c ∈ cs, c.code ≠ 10
  | .block _ depth, cs => 0 < depth → Ends final depth cs

/-- The characters start a token: no blank, and no comment. -/
def StartsToken (cs : List Character) : Prop :=
  ∀ first rest, cs = first :: rest → isSeparator first.code = false ∧
    (first.code = 47 → ∀ d ∈ rest.head?, d.code ≠ 47 ∧ d.code ≠ 42)

/-- One more character of a comment. -/
theorem Ends.other {depth : Nat} {c : Character} {rest : List Character}
    (plain : ∀ d ∈ rest.head?, ¬ (c.code = 47 ∧ d.code = 42) ∧ ¬ (c.code = 42 ∧ d.code = 47))
    (ends : Ends final (depth + 1) rest) : Ends final (depth + 1) (c :: rest) := by
  obtain ⟨comment, more, rfl, tail, others⟩ := ends
  have plainTail : ∀ d ∈ comment.head?, ¬ (c.code = 47 ∧ d.code = 42) ∧
      ¬ (c.code = 42 ∧ d.code = 47) := by
    intro d next
    apply plain
    simp [Option.mem_def.mp next]
  exact ⟨c :: comment, more, rfl, .other plainTail tail, others⟩

/-- One more comment opens inside. -/
theorem Ends.nested {depth : Nat} {slash star : Character} {rest : List Character}
    (isSlash : slash.code = 47)
    (isStar : star.code = 42) (ends : Ends final (depth + 2) rest) :
    Ends final (depth + 1) (slash :: star :: rest) := by
  obtain ⟨inner, behind, rfl, innerTail, comment, more, rfl, tail, others⟩ := ends
  exact ⟨slash :: star :: (inner ++ comment),
    more, by simp, .nested isSlash isStar innerTail tail, others⟩

/-- Filler that starts with a block comment is completed by what completes the comment. -/
theorem Completes.opens {opened : Nat} {slash star : Character} {filler : List Character}
    (isSlash : slash.code = 47)
    (isStar : star.code = 42) (completed : Completes final (.block opened 1) filler) :
    Completes final .open (slash :: star :: filler) := by
  obtain ⟨comment, rest, rfl, tail, others⟩ := completed Nat.one_pos
  exact Filler.block isSlash isStar tail others

/-- Filler that starts with a line comment is completed by what completes the comment. -/
theorem Completes.opensLine {slash second : Character} {filler : List Character}
    (isSlash : slash.code = 47)
    (isSecond : second.code = 47) (completed : Completes final .line filler) :
    Completes final .open (slash :: second :: filler) := by
  rcases completed with ⟨content, feed, rest, rfl, within, isFeed, others⟩ | ⟨isFinal, within⟩
  · exact .line isSlash isSecond within isFeed others
  · exact .unended isFinal isSlash isSecond within

/-- One more character of a line comment, which is its last one if it is a line feed. -/
theorem Completes.line {c : Character} {filler : List Character}
    (completed : Completes final (if c.code = 10 then .open else .line) filler) : Completes
      final .line (c :: filler) := by
  by_cases feed : c.code = 10
  · rw [if_pos feed] at completed
    exact .inl ⟨[], c, filler, rfl, by simp, feed, completed⟩
  · rw [if_neg feed] at completed
    rcases completed with ⟨content, last, rest, rfl, within, isFeed, others⟩ |
        ⟨isFinal, within⟩
    · exact .inl ⟨c :: content, last, rest, rfl, List.forall_mem_cons.mpr ⟨feed, within⟩,
        isFeed, others⟩
    · exact .inr ⟨isFinal, List.forall_mem_cons.mpr ⟨feed, within⟩⟩

/-- One more comment opens inside of a comment. -/
theorem Completes.nested {opened depth : Nat} {slash star : Character}
    {filler : List Character} (isSlash : slash.code = 47) (isStar : star.code = 42)
    (completed : Completes final (.block opened (depth + 1)) filler) :
    Completes final (.block opened depth) (slash :: star :: filler) := by
  intro positive
  obtain ⟨depth, rfl⟩ := Nat.exists_eq_add_one_of_ne_zero (Nat.ne_of_gt positive)
  exact Ends.nested isSlash isStar (completed (Nat.succ_pos (depth + 1)))

/-- The innermost comment ends, and what completes the one around it or the
filler goes on. -/
theorem Completes.closes {opened depth : Nat} {star slash : Character}
    {filler : List Character} (isStar : star.code = 42) (isSlash : slash.code = 47)
    (completed : Completes final (if depth ≤ 1 then .open else .block opened (depth - 1))
      filler) :
    Completes final (.block opened depth) (star :: slash :: filler) := by
  intro positive
  obtain ⟨depth, rfl⟩ := Nat.exists_eq_add_one_of_ne_zero (Nat.ne_of_gt positive)
  refine ⟨[star, slash], filler, rfl, .closing isStar isSlash, ?_⟩
  cases depth with
  | zero => exact completed
  | succ depth =>
    rw [if_neg (by omega)] at completed
    exact completed (Nat.succ_pos depth)

/-- One more character of a block comment, which neither opens nor ends one with what
follows it. -/
theorem Completes.other {opened depth : Nat} {c : Character} {filler : List Character}
    (plain : ∀ d ∈ filler.head?, ¬ (c.code = 47 ∧ d.code = 42) ∧ ¬ (c.code = 42 ∧ d.code = 47))
    (completed : Completes final (.block opened depth) filler) :
    Completes final (.block opened depth) (c :: filler) := by
  intro positive
  obtain ⟨depth, rfl⟩ := Nat.exists_eq_add_one_of_ne_zero (Nat.ne_of_gt positive)
  exact Ends.other plain (completed positive)

/-- Two ASCII characters are two bytes. -/
theorem two_eq_length {a b : Character} (first : a.width = 1) (second : b.width = 1) :
    2 = (Text.ofCharacters [a, b]).length := by
  simp only [Character.width] at first second
  simp [Text.ofCharacters, first, second]

/-- The scanner stops in front of a token or at the end, and what it skipped completes the
filler that it was inside of. -/
structure Skips (gap : Gap) (offset stop : Nat) (cs more : List Character) : Prop where
  starts : StartsToken more
  filler : ∃ filler, cs = filler ++ more ∧ stop = offset + (Text.ofCharacters filler).length ∧
    Completes (more = []) gap filler

/-- Skipping what is completed by what is skipped next. -/
theorem Skips.step {gap next : Gap} {offset width stop : Nat} (taken : List Character)
    {rest more : List Character} (skips : Skips next (offset + width) stop rest more)
    (sameWidth : width = (Text.ofCharacters taken).length)
    (completes : ∀ filler, rest = filler ++ more → Completes (more = []) next filler →
      Completes (more = []) gap (taken ++ filler)) : Skips gap offset stop
      (taken ++ rest) more := by
  obtain ⟨starts, filler, rfl, rfl, completed⟩ := skips
  refine ⟨starts, taken ++ filler, by simp, ?_, completes filler rfl completed⟩
  simp only [sameWidth, Text.ofCharacters, List.flatMap_append, List.length_append,
    Nat.add_assoc]

/-- What the scanner skips is filler, from wherever it is inside of one.

Proof: by induction on the skipping. One character or two are skipped and complete what is
skipped behind them. Where a comment starts or ends, two characters are skipped as two
bytes, because they are ASCII. -/
theorem skipGap_skips {gap : Gap} {offset stop : Nat} {cs more : List Character}
    (narrow : ∀ c ∈ cs, c.code < 0x80 → c.width = 1)
    (skipped : skipGap gap offset cs = .ok (stop, more)) :
    Skips gap offset stop cs more := by
  have pair {a b : Character} {rest : List Character} (narrow : ∀ c ∈ a :: b :: rest,
      c.code < 0x80 → c.width = 1)
      (first : a.code < 0x80) (second : b.code < 0x80) :
        2 = (Text.ofCharacters [a, b]).length :=
    two_eq_length (narrow a List.mem_cons_self first)
      (narrow b (List.mem_cons_of_mem a List.mem_cons_self) second)
  have single (c : Character) : c.width = (Text.ofCharacters [c]).length := by
    simp [Text.ofCharacters, Character.width]
  have later {c : Character} {rest : List Character} (narrow : ∀ d ∈ c :: rest,
      d.code < 0x80 → d.width = 1) :
      ∀ d ∈ rest, d.code < 0x80 → d.width = 1 := (List.forall_mem_cons.mp narrow).2
  fun_induction skipGap gap offset cs with
  | case1 opened depth offset => cases skipped
  | case2 gap offset outside =>
    cases skipped
    have starts : StartsToken [] := by
      intro first rest impossible
      cases impossible
    refine ⟨starts, [], rfl, rfl, ?_⟩
    cases gap with
    | «open» => exact .nothing
    | line => exact .inr ⟨rfl, by simp⟩
    | block opened depth => exact absurd rfl (outside opened depth)
  | case3 offset c rest separates inductionHypothesis =>
    apply Skips.step [c] (inductionHypothesis (later narrow) skipped) (single c)
    intro filler _ completed
    exact .blank ((isSeparator_iff c.code).mp separates) completed
  | case4 offset a visible b after opens inductionHypothesis =>
    obtain ⟨slash, second⟩ : a.code = 47 ∧ b.code = 47 := by simpa using opens
    apply Skips.step [a, b] (inductionHypothesis (later (later narrow)) skipped)
      (pair narrow (by omega) (by omega))
    exact fun filler _ completed => completed.opensLine slash second
  | case5 offset a visible b after noLine opens inductionHypothesis =>
    obtain ⟨slash, star⟩ : a.code = 47 ∧ b.code = 42 := by simpa using opens
    apply Skips.step [a, b] (inductionHypothesis (later (later narrow)) skipped)
      (pair narrow (by omega) (by omega))
    exact fun filler _ completed => completed.opens slash star
  | case6 offset a visible b after noLine noBlock =>
    cases skipped
    refine ⟨?_, [], rfl, rfl, .nothing⟩
    rintro first rest ⟨⟩
    refine ⟨by simpa using visible, ?_⟩
    rintro slash d ⟨rfl⟩
    exact ⟨by simpa [slash] using noLine, by simpa [slash] using noBlock⟩
  | case7 offset c visible =>
    cases skipped
    refine ⟨?_, [], rfl, rfl, .nothing⟩
    rintro first rest ⟨⟩
    exact ⟨by simpa using visible, by simp⟩
  | case8 offset c rest inductionHypothesis =>
    apply Skips.step [c] (inductionHypothesis (later narrow) skipped) (single c)
    exact fun filler _ completed => completed.line
  | case9 opened depth offset a b after opens inductionHypothesis =>
    obtain ⟨slash, star⟩ : a.code = 47 ∧ b.code = 42 := by simpa using opens
    apply Skips.step [a, b] (inductionHypothesis (later (later narrow)) skipped)
      (pair narrow (by omega) (by omega))
    exact fun filler _ completed => completed.nested slash star
  | case10 opened depth offset a b after noOpening closes inductionHypothesis =>
    obtain ⟨star, slash⟩ : a.code = 42 ∧ b.code = 47 := by simpa using closes
    apply Skips.step [a, b] (inductionHypothesis (later (later narrow)) skipped)
      (pair narrow (by omega) (by omega))
    exact fun filler _ completed => completed.closes star slash
  | case11 opened depth offset a b after noOpening noClosing inductionHypothesis =>
    apply Skips.step [a] (inductionHypothesis (later narrow) skipped) (single a)
    intro filler split completed
    apply completed.other
    intro d next
    obtain ⟨rest, rfl⟩ := List.head?_eq_some_iff.mp next
    obtain ⟨rfl, -⟩ := List.cons.inj split
    exact ⟨by simpa using noOpening, by simpa using noClosing⟩
  | case12 opened depth offset c inductionHypothesis => cases skipped

/-- One blank is skipped. -/
theorem skipGap_blank {c : Character} (separates : isSeparator c.code = true) (offset : Nat)
    (rest : List Character) :
    skipGap .open offset (c :: rest) = skipGap .open (offset + c.width) rest := by
  cases rest <;> simp [skipGap, separates]

/-- A line comment is skipped up to its line feed. -/
theorem skipGap_line (content more : List Character) (within : ∀ c ∈ content, c.code ≠ 10)
    (offset : Nat) :
    ∃ stop, skipGap .line offset (content ++ more) = skipGap .line stop more := by
  induction content generalizing offset with
  | nil => exact ⟨offset, rfl⟩
  | cons c content inductionHypothesis =>
    obtain ⟨noFeed, others⟩ := List.forall_mem_cons.mp within
    obtain ⟨stop, skipped⟩ := inductionHypothesis others (offset + c.width)
    exact ⟨stop, by rw [← skipped, List.cons_append, skipGap, if_neg noFeed]⟩

/-- What is left of a comment is skipped, and then the skipper is inside of one
comment less. -/
theorem CommentTail.skipped {rest : List Character} (comment : CommentTail rest)
    (opened depth offset : Nat) (more : List Character) :
    ∃ stop, skipGap (.block opened (depth + 1)) offset (rest ++ more) =
      skipGap (if depth = 0 then .open else .block opened depth) stop more := by
  induction comment generalizing depth offset more with
  | closing isStar isSlash => exact ⟨offset + 2, by simp [skipGap, isStar, isSlash]⟩
  | @nested slash star inner rest isSlash isStar _ _ skipInner skipRest =>
    obtain ⟨middle, inside⟩ := skipInner (depth + 1) (offset + 2) (rest ++ more)
    obtain ⟨stop, outside⟩ := skipRest depth middle more
    refine ⟨stop, ?_⟩
    rw [← outside]
    simpa [skipGap, isSlash, isStar] using inside
  | @other c rest plain others inductionHypothesis =>
    obtain ⟨stop, skipped⟩ := inductionHypothesis depth (offset + c.width) more
    obtain ⟨d, others, rfl⟩ := List.exists_cons_of_ne_nil others.ne_nil
    obtain ⟨noOpening, noClosing⟩ := plain d rfl
    exact ⟨stop, by simpa [skipGap, noOpening, noClosing] using skipped⟩

/-- In front of anything it skips otherwise, the scanner skips all of a filler. -/
theorem Filler.skipped {cs more : List Character} (filler : Filler final cs)
    (atEnd : final → more = []) (offset : Nat) :
    ∃ stop, skipGap .open offset (cs ++ more) = skipGap .open stop more := by
  induction filler generalizing offset with
  | nothing => exact ⟨offset, rfl⟩
  | @blank c rest isBlank _ inductionHypothesis =>
    obtain ⟨stop, skipped⟩ := inductionHypothesis (offset + c.width)
    exact ⟨stop, by
      rw [← skipped, List.cons_append, skipGap_blank ((isSeparator_iff c.code).mpr isBlank)]⟩
  | @line slash second feed content rest isSlash isSecond within isFeed _ inductionHypothesis =>
    obtain ⟨middle, inside⟩ := skipGap_line content (feed :: (rest ++ more)) within
      (offset + 2)
    obtain ⟨stop, skipped⟩ := inductionHypothesis (middle + feed.width)
    refine ⟨stop, ?_⟩
    rw [← skipped]
    simpa [skipGap, isSeparator, isSlash, isSecond, isFeed] using inside
  | @block slash star inner rest isSlash isStar comment _ inductionHypothesis =>
    obtain ⟨middle, inside⟩ := comment.skipped offset 0 (offset + 2) (rest ++ more)
    obtain ⟨stop, skipped⟩ := inductionHypothesis middle
    refine ⟨stop, ?_⟩
    rw [← skipped]
    simpa [skipGap, isSeparator, isSlash, isStar] using inside
  | @unended slash second content isFinal isSlash isSecond within =>
    obtain ⟨stop, inside⟩ := skipGap_line content [] within (offset + 2)
    refine ⟨stop, ?_⟩
    rw [atEnd isFinal]
    simpa [skipGap, isSeparator, isSlash, isSecond] using inside

end Persona.Token
