import Mathlib.Data.List.DropRight
import Persona.Source
import Persona.Proofs.Text.Boundary

/-!
# Lines and columns

The place of an offset is what a person counts: one line more than there are line feeds in
front of it, and one column more than there are characters behind the last of these. An
offset outside the text is moved to the nearer end.

The lines of a source are found once, with the rest of the text behind the start of
each. They may be searched one by one or by halving, which comes to the same, because
each starts behind the one before it. Between two characters of the text, places grow
with the offsets.
-/

namespace Persona

namespace Text

/-- What is behind the last line feed. -/
def lastLine (text : Text) : Text := text.rtakeWhile (· != 10)

/-- The line and the column behind a text, counted from one. -/
def placeAfter (text : Text) : Nat × Nat :=
  (text.count 10 + 1, text.lastLine.characters.length + 1)

/-- A text without line feeds is its own last line. -/
theorem lastLine_of_one {text : Text} (noFeed : 10 ∉ text) : text.lastLine = text := by
  apply List.rtakeWhile_eq_self_iff.mpr
  intro b member
  simpa using fun isFeed : b = 10 => noFeed (isFeed ▸ member)

/-- A text is its last line behind what is empty or ends with a line feed. -/
theorem lastLine_split (text : Text) : ∃ front, text = front ++ text.lastLine ∧
    ∀ b ∈ front.getLast?, b = 10 := by
  refine ⟨text.rdropWhile (· != 10), List.rdropWhile_append_rtakeWhile.symm, ?_⟩
  intro b last
  have some : text.rdropWhile (· != 10) ≠ [] := by
    intro none
    simp [none] at last
  have stops := List.rdropWhile_last_not (· != 10) text some
  rw [List.getLast?_eq_some_getLast some] at last
  obtain rfl := Option.some.inj last
  simpa using stops

/-- Behind a line feed only what follows it counts. -/
theorem lastLine_feed (front rest : Text) :
    lastLine (front ++ 10 :: rest) = rest.lastLine := by
  induction rest using List.reverseRecOn with
  | nil => exact List.rtakeWhile_concat_neg _ _ 10 (by decide)
  | append_singleton rest b inductionHypothesis =>
    unfold lastLine at inductionHypothesis ⊢
    rw [← List.cons_append, ← List.append_assoc, List.rtakeWhile_concat,
      List.rtakeWhile_concat, inductionHypothesis]

/-- More text without line feeds makes the last line longer. -/
theorem lastLine_append {text more : Text} (noFeed : 10 ∉ more) :
    lastLine (text ++ more) = text.lastLine ++ more := by
  induction more using List.reverseRecOn with
  | nil => rw [List.append_nil, List.append_nil]
  | append_singleton more b inductionHypothesis =>
    have notFeed : (b != 10) = true := by
      simpa using fun isFeed : b = 10 => noFeed (by simp [isFeed])
    have shorter := inductionHypothesis fun feed => noFeed (List.mem_append_left [b] feed)
    unfold lastLine at shorter ⊢
    rw [← List.append_assoc, List.rtakeWhile_concat_pos _ _ b notFeed, shorter,
      List.append_assoc]

/-- The one place is on an earlier line than the other, or further to the left on
the same line. -/
def Precedes (first second : Nat × Nat) : Prop :=
  first.1 < second.1 ∨ first.1 = second.1 ∧ first.2 < second.2

/-- A place does not precede itself. -/
theorem Precedes.ne {first second : Nat × Nat} (precedes : Precedes first second) :
    first ≠ second := by
  rintro rfl
  rcases precedes with line | ⟨-, column⟩
  · exact lt_irrefl _ line
  · exact lt_irrefl _ column

/-- The place behind more text is later, if the text ends between two characters. -/
theorem placeAfter_append {text more : Text} (some : more ≠ [])
    (cut : characters (text ++ more) = text.characters ++ more.characters) :
    Precedes (placeAfter text) (placeAfter (text ++ more)) := by
  by_cases feed : 10 ∈ more
  · left
    have feeds : 0 < more.count 10 := List.count_pos_iff.mpr feed
    simp only [placeAfter, List.count_append]
    omega
  · right
    have noFeeds : more.count 10 = 0 := List.count_eq_zero.mpr feed
    -- The last line is read alike on its own, because what is in front of it ends with a
    -- line feed.
    obtain ⟨front, split, ends⟩ := text.lastLine_split
    have ascii : ∀ b ∈ front.getLast?, b < 0x80 := by
      intro b last
      rw [ends b last]
      decide
    have longer : characters (text.lastLine ++ more) =
        text.lastLine.characters ++ more.characters := by
      have short := characters_append_of_last ascii text.lastLine
      have long := characters_append_of_last ascii (text.lastLine ++ more)
      rw [← split] at short
      rw [← List.append_assoc, ← split, cut, short, List.append_assoc] at long
      exact (List.append_cancel_left long).symm
    have someCharacter : more.characters ≠ [] := by
      intro none
      apply some
      rw [← ofCharacters_characters more, none]
      rfl
    have width := List.length_pos_iff.mpr someCharacter
    constructor
    · simp only [placeAfter, List.count_append, noFeeds, Nat.add_zero]
    · simp only [placeAfter, lastLine_append feed, longer, List.length_append]
      omega

/-- Behind the first `offset` bytes of a text, which are whole characters, these
characters are left. -/
def Leaves (text : Text) (offset : Nat) (left : List Character) : Prop :=
  ∃ before, text.characters = before ++ left ∧ offset = (ofCharacters before).length

/-- The offset is between two characters of the text, or at one of its ends. -/
def Boundary (text : Text) (offset : Nat) : Prop := ∃ left, Leaves text offset left

/-- The bytes of characters, one part after the other. -/
theorem ofCharacters_append (before after : List Character) :
    ofCharacters (before ++ after) = ofCharacters before ++ ofCharacters after :=
  List.flatMap_append

/-- At first all characters are left. -/
theorem Leaves.start (text : Text) : Leaves text 0 text.characters := ⟨[], rfl, rfl⟩

/-- Some of the characters are passed, and the others are left. -/
theorem Leaves.pass {text : Text} {offset : Nat} {taken left : List Character}
    (leaves : Leaves text offset (taken ++ left)) :
    Leaves text (offset + (ofCharacters taken).length) left := by
  obtain ⟨before, split, rfl⟩ := leaves
  refine ⟨before ++ taken, ?_, ?_⟩
  · rw [split, List.append_assoc]
  · rw [ofCharacters_append, List.length_append]

/-- What is left consists of characters of the text. -/
theorem Leaves.mem {text : Text} {offset : Nat} {left : List Character}
    (leaves : Leaves text offset left)
    {c : Character} (member : c ∈ left) : c ∈ text.characters := by
  obtain ⟨before, split, -⟩ := leaves
  rw [split]
  exact List.mem_append_right before member

/-- Where characters are left is a boundary. -/
theorem Leaves.boundary {text : Text} {offset : Nat} {left : List Character}
    (leaves : Leaves text offset left) :
    Boundary text offset := ⟨left, leaves⟩

/-- A boundary is inside the text. -/
theorem Boundary.within {text : Text} {offset : Nat} (boundary : Boundary text offset) :
    offset ≤ text.length := by
  obtain ⟨left, before, split, rfl⟩ := boundary
  have whole := congrArg List.length (characters_cut split).1
  rw [List.length_append] at whole
  omega

/-- Places grow from boundary to boundary. -/
theorem Boundary.precedes {text : Text} {first second : Nat} (isFirst : Boundary text first)
    (isSecond : Boundary text second) (earlier : first < second) :
    Precedes (placeAfter (text.take first)) (placeAfter (text.take second)) := by
  obtain ⟨left, before, split, rfl⟩ := isFirst
  obtain ⟨further, beyond, splitFurther, rfl⟩ := isSecond
  obtain ⟨whole, -, -⟩ := characters_cut split
  obtain ⟨wholeFurther, readBeyond, -⟩ := characters_cut splitFurther
  have upTo : text.take (ofCharacters before).length = ofCharacters before :=
    whole ▸ List.take_left
  have upToFurther : text.take (ofCharacters beyond).length = ofCharacters beyond :=
    wholeFurther ▸ List.take_left
  rw [upTo, upToFurther]
  rcases List.append_eq_append_iff.mp (split.symm.trans splitFurther) with
    ⟨between, rfl, -⟩ | ⟨between, rfl, -⟩
  case inl =>
    obtain ⟨-, readBefore, readBetween⟩ := characters_cut readBeyond
    rw [ofCharacters_append] at readBeyond earlier ⊢
    apply placeAfter_append
    · intro none
      simp [none] at earlier
    · rw [readBeyond, readBefore, readBetween]
  case inr =>
    rw [ofCharacters_append, List.length_append] at earlier
    omega

end Text

namespace Source

open Text (placeAfter lastLine lastLine_of_one lastLine_append lastLine_feed)

/-- A line behind a line feed starts further on. -/
theorem linesAfterFeeds_start {offset : Nat} {text : Text} {line : Line}
    (member : line ∈ linesAfterFeeds offset text) :
    offset < line.start := by
  induction text generalizing offset with
  | nil => cases member
  | cons b rest inductionHypothesis =>
    rw [linesAfterFeeds] at member
    split at member
    case isTrue isFeed =>
      rcases List.mem_cons.mp member with rfl | later
      · exact Nat.lt_succ_self offset
      · exact Nat.lt_of_succ_lt (inductionHypothesis later)
    case isFalse notFeed => exact Nat.lt_of_succ_lt (inductionHypothesis member)

/-- Each line starts behind the one before it. -/
theorem linesAfterFeeds_sorted (offset : Nat) (text : Text) :
    (linesAfterFeeds offset text).Pairwise (·.start < ·.start) := by
  induction text generalizing offset with
  | nil => exact .nil
  | cons b rest inductionHypothesis =>
    rw [linesAfterFeeds]
    split
    case isTrue isFeed =>
      apply List.Pairwise.cons
      · intro line later
        exact linesAfterFeeds_start later
      · exact inductionHypothesis (offset + 1)
    case isFalse notFeed => exact inductionHypothesis (offset + 1)

/-- A line has with it the text from its start on. -/
theorem linesAfterFeeds_tail {content : Text} {offset : Nat} {line : Line}
    (member : line ∈ linesAfterFeeds offset (content.drop offset)) :
    line.tail = content.drop line.start := by
  induction here : content.drop offset generalizing offset with
  | nil =>
    rw [here] at member
    cases member
  | cons b rest inductionHypothesis =>
    have next : content.drop (offset + 1) = rest := by
      rw [← List.tail_drop, here, List.tail_cons]
    rw [here, linesAfterFeeds, ← next] at member
    split at member
    case isTrue isFeed =>
      rcases List.mem_cons.mp member with rfl | later
      · rfl
      · exact inductionHypothesis later next
    case isFalse notFeed => exact inductionHypothesis member next

/-- The lines that are reached `count` bytes further on, after a line which has come to
`offset` with `front`: there is one for each line feed on the way, and the last one has
come with the last line.

Proof: by induction on the text. A line feed starts a new line, which has come with
nothing; any other byte is added to the line that is there. -/
theorem linesAfterFeeds_reached (line : Line) (front text : Text) (offset count : Nat)
    (started : line.tail = front ++ text) (arrived : line.start + front.length = offset)
    (noFeed : 10 ∉ front) :
    ((linesAfterFeeds offset text).takeWhile fun l => l.start ≤ offset + count).length =
      (text.take count).count 10 ∧
      ∃ reached,
        (line :: (linesAfterFeeds offset text).takeWhile fun l =>
        l.start ≤ offset + count).getLast? = some reached ∧
        reached.tail.take (offset + count - reached.start) =
        lastLine (front ++ text.take count) := by
  induction text generalizing line front offset count with
  | nil =>
    refine ⟨by simp [linesAfterFeeds], line, rfl, ?_⟩
    rw [started, List.append_nil, List.take_nil, List.append_nil, lastLine_of_one noFeed,
      ← arrived]
    exact List.take_of_length_le (by omega)
  | cons b rest inductionHypothesis =>
    cases count with
    | zero =>
      have none : ((linesAfterFeeds offset (b :: rest)).takeWhile fun l =>
          l.start ≤ offset + 0) = [] := by
        rw [List.takeWhile_eq_nil_iff]
        intro some
        have further := linesAfterFeeds_start (List.getElem_mem some)
        simpa using further
      rw [none]
      refine ⟨rfl, line, rfl, ?_⟩
      rw [started, List.take_zero, List.append_nil, lastLine_of_one noFeed, ← arrived,
        Nat.add_zero, Nat.add_sub_cancel_left]
      exact List.take_left
    | succ count =>
      have total : offset + (count + 1) = offset + 1 + count := by omega
      rw [linesAfterFeeds, List.take_succ_cons, total]
      by_cases isFeed : b = 10
      · subst isFeed
        obtain ⟨feeds, reached, last, comes⟩ :=
          inductionHypothesis ⟨offset + 1, rest⟩ [] (offset + 1) count rfl rfl List.not_mem_nil
        rw [if_pos rfl, List.takeWhile_cons_of_pos (by simp)]
        refine ⟨?_, reached, ?_, ?_⟩
        · rw [List.length_cons, feeds, List.count_cons_self]
        · rw [List.getLast?_cons_cons]
          exact last
        · rw [lastLine_feed]
          exact comes
      · have startedSo : line.tail = front ++ [b] ++ rest := by
          rw [started, List.append_assoc]; rfl
        have arrivedSo : line.start + (front ++ [b]).length = offset + 1 := by
          rw [List.length_append, ← arrived]; rfl
        have noFeedSo : 10 ∉ front ++ [b] := by simp [noFeed, Ne.symm isFeed]
        obtain ⟨feeds, reached, last, comes⟩ :=
          inductionHypothesis line (front ++ [b]) (offset + 1) count startedSo arrivedSo
            noFeedSo
        rw [if_neg isFeed]
        refine ⟨?_, reached, last, ?_⟩
        · rw [feeds, List.count_cons_of_ne isFeed]
        · rw [comes, List.append_assoc]
          rfl

/-- The plain rule: an offset is moved into the content, and its place is that behind what
is in front of it. -/
theorem lineColumn_eq (name content : Text) (offset : Int) :
    (ofText name content).lineColumn offset =
      placeAfter (content.take (max 0 (min offset content.length)).toNat) := by
  have clamped : (ofText name content).clamp offset =
      (max 0 (min offset content.length)).toNat := by
    simp only [clamp, ofText]
    omega
  rw [lineColumn, clamped]
  generalize (max 0 (min offset (content.length : Int))).toNat = position
  obtain ⟨feeds, reached, last, comes⟩ :=
    linesAfterFeeds_reached ⟨0, content⟩ [] content 0 position rfl rfl List.not_mem_nil
  rw [Nat.zero_add] at feeds last comes
  rw [List.nil_append] at comes
  have found : (ofText name content).lines.takeWhile (fun line => line.start ≤ position) =
      ⟨0, content⟩ :: (linesAfterFeeds 0 content).takeWhile (fun line =>
        line.start ≤ position) :=
    List.takeWhile_cons_of_pos (by simp)
  simp only [found, last, List.length_cons, feeds, comes, placeAfter]

/-- The first index from `low` up to `high` at which a predicate holds, by halving; `high`
where it holds at none. -/
def search (holds : Nat → Bool) (low high : Nat) : Nat :=
  if low < high then
    if holds ((low + high) / 2) then search holds low ((low + high) / 2) else search holds
      ((low + high) / 2 + 1) high
  else low
termination_by high - low

/-- Halving finds the index where a predicate that keeps holding starts to hold.

Proof: by induction on the halving. The predicate keeps failing in front of `low` and
holding from `high` on. -/
theorem search_spec {holds : Nat → Bool} {low high : Nat}
    (keeps : ∀ i j, i ≤ j → j < high → holds i = true → holds j = true)
    (ordered : low ≤ high) :
    low ≤ search holds low high ∧ search holds low high ≤ high ∧
      (∀ i, low ≤ i → i < search holds low high → holds i = false) ∧
      (search holds low high < high → holds (search holds low high) = true) := by
  fun_induction search holds low high with
  | case1 low high less found inductionHypothesis =>
    obtain ⟨after, before, fails, here⟩ :=
      inductionHypothesis (fun i j le inside => keeps i j le (by omega)) (by omega)
    refine ⟨after, by omega, fails, fun _ => ?_⟩
    rcases Nat.lt_or_eq_of_le before with inside | atMiddle
    · exact here inside
    · rw [atMiddle]
      exact found
  | case2 low high less missing inductionHypothesis =>
    obtain ⟨after, before, fails, here⟩ := inductionHypothesis keeps (by omega)
    refine ⟨by omega, before, fun i above below => ?_, here⟩
    rcases Nat.lt_or_ge ((low + high) / 2) i with behind | inFront
    · exact fails i behind below
    · exact Bool.eq_false_iff.mpr fun holdsThere =>
        missing (keeps i _ inFront (by omega) holdsThere)
  | case3 low high done =>
    exact ⟨le_rfl, ordered, fun i above below => absurd below (Nat.not_lt.mpr above),
      fun less => absurd less done⟩

/-- The number of lines that start at or in front of a position, found by halving. -/
def linesUpTo (s : Source) (position : Nat) : Nat :=
  search (fun i => s.lines[i]?.any fun line => position < line.start) 0 s.lines.length

/-- The line and column of an offset, with its line found by halving. There is none where
no line starts in front of the offset, or the line that is found starts behind it. -/
def lineColumnByHalves (s : Source) (offset : Int) : Option (Nat × Nat) := do
  let position := s.clamp offset
  let found := s.linesUpTo position
  if found = 0 then none
  else
    let line ← s.lines[found - 1]?
    if position < line.start then none
    else some (found, (Text.characters (s.content.extract line.start position)).length + 1)

/-- Where a predicate holds in front of an index and not at it, it holds as far as
this index. -/
theorem takeWhile_eq_take {α : Type} {p : α → Bool} {l : List α} {n : Nat}
    (before : ∀ i, i < n → ∀ a ∈ l[i]?, p a = true) (there : ∀ a ∈ l[n]?, p a = false) :
    l.takeWhile p = l.take n := by
  induction l generalizing n with
  | nil => simp
  | cons a l inductionHypothesis =>
    cases n with
    | zero => simpa using there a rfl
    | succ n =>
      rw [List.take_succ_cons, List.takeWhile_cons_of_pos (before 0 (Nat.succ_pos n) a rfl)]
      congr 1
      exact inductionHypothesis (fun i less => before (i + 1) (Nat.succ_lt_succ less)) there

/-- The lines of a source start one behind the other. -/
theorem lines_sorted (name content : Text) :
    (ofText name content).lines.Pairwise (·.start < ·.start) := by
  apply List.Pairwise.cons
  · intro line later
    exact Nat.zero_lt_of_lt (linesAfterFeeds_start later)
  · exact linesAfterFeeds_sorted 0 content

/-- A line of a source has with it the text from its start on. -/
theorem lines_tail {name content : Text} {line : Line}
    (member : line ∈ (ofText name content).lines) :
    line.tail = content.drop line.start := by
  rcases List.mem_cons.mp member with rfl | later
  · rfl
  · exact linesAfterFeeds_tail later

/-- The lines up to a position are those that are found by going through them. -/
theorem linesUpTo_spec (name content : Text) (position : Nat) :
    ∃ index line, (ofText name content).linesUpTo position = index + 1 ∧
      (ofText name content).lines[index]? = some line ∧ line.start ≤ position ∧
      (ofText name content).lines.takeWhile (fun line => line.start ≤ position) =
        (ofText name content).lines.take (index + 1) := by
  have sorted := lines_sorted name content
  have first : (ofText name content).lines[0]? = some ⟨0, content⟩ := rfl
  unfold linesUpTo
  generalize (ofText name content).lines = lines at sorted first
  have keeps : ∀ i j, i ≤ j → j < lines.length →
      (lines[i]?.any fun line => position < line.start) = true →
      (lines[j]?.any fun line => position < line.start) = true := by
    intro i j le inside behind
    rcases Nat.lt_or_eq_of_le le with less | rfl
    · have ordered := List.pairwise_iff_getElem.mp sorted i j (less.trans inside) inside less
      rw [List.getElem?_eq_getElem inside]
      rw [List.getElem?_eq_getElem (less.trans inside)] at behind
      simp only [Option.any_some, decide_eq_true_eq] at behind ⊢
      omega
    · exact behind
  obtain ⟨-, within, fails, stops⟩ := search_spec keeps (Nat.zero_le _)
  generalize search _ 0 lines.length = found at within fails stops ⊢
  have inFront : ∀ i, i < found → ∀ line ∈ lines[i]?, line.start ≤ position := by
    intro i less line here
    simpa [Option.mem_def.mp here] using fails i (Nat.zero_le i) less
  cases found with
  | zero =>
    have some : 0 < lines.length := (List.getElem?_eq_some_iff.mp first).1
    simpa [first] using stops some
  | succ index =>
    have inside : index < lines.length := within
    have here := List.getElem?_eq_getElem inside
    refine ⟨index, lines[index], rfl, here, inFront index (Nat.lt_succ_self index) _ here, ?_⟩
    apply takeWhile_eq_take
    · intro i less line there
      simpa using inFront i less line there
    · intro line there
      have less := (List.getElem?_eq_some_iff.mp there).1
      simpa [Option.mem_def.mp there] using stops less

/-- Halving comes to an answer, and it is the one that is found by going
through the lines. -/
theorem lineColumnByHalves_eq (name content : Text) (offset : Int) :
    (ofText name content).lineColumnByHalves offset =
      some ((ofText name content).lineColumn offset) := by
  obtain ⟨index, line, found, here, inFront, upTo⟩ :=
    linesUpTo_spec name content ((ofText name content).clamp offset)
  have tail := lines_tail (List.mem_of_getElem? here)
  have bytes : content.extract line.start ((ofText name content).clamp offset) =
      line.tail.take ((ofText name content).clamp offset - line.start) := by
    rw [tail, List.extract_eq_take_drop]
  have last : ((ofText name content).lines.take (index + 1)).getLast? = some line := by
    rw [List.getLast?_take, if_neg (Nat.succ_ne_zero index), Nat.add_sub_cancel, here]
    rfl
  have count : ((ofText name content).lines.take (index + 1)).length = index + 1 :=
    List.length_take_of_le (List.getElem?_eq_some_iff.mp here).1
  rw [lineColumn, lineColumnByHalves]
  simp only [found, upTo, last, count, Nat.add_sub_cancel, here]
  rw [if_neg (Nat.succ_ne_zero index)]
  dsimp only [Option.bind_eq_bind, Option.bind_some]
  rw [if_neg (Nat.not_lt.mpr inFront)]
  exact congrArg (fun text => some (index + 1, (Text.characters text).length + 1)) bytes

end Source

end Persona
