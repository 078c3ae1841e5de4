import Persona.Proofs.Grammar.Depth
import Persona.Proofs.Grammar.Recovery

/-!
# Programs perform as parsers read

On tokens as the scanner leaves them, with the end of the input in the last place and
nowhere else, a program of the grammar comes to its end, wherever in the array it starts,
before a loop of it takes more turns than there are tokens. It does what the parser of the
same name does with the tokens that are left there. On the way it stays inside the array,
every turn of a loop ends further on than it began, also where an entry is skipped, and
every error and every event concerns one of the tokens.

Proof: This is a judgment on a program and a parser with one rule for each way in which
they are put together. A loop is performed as the parser with fuel reads it whenever the
turns that are waited for, and the fuel, exceed the number of tokens that are left, and
each turn leaves fewer of them.
-/

namespace Persona.Grammar

open Grammar.Parser

/-- Tokens as the scanner leaves them, a nesting limit, and patience for as many turns as
there are tokens. -/
structure Scanned where
  tokens : List Token
  last : Token
  limit : Int
  patience : Nat
  ends : last.kind = .endOfInput
  inside : ∀ t ∈ tokens, t.kind ≠ .endOfInput
  patient : tokens.length < patience

/-- The positions that a mark speaks of are inside the array, and what is done leads
further on. -/
def Mark.Within (size : Nat) : Mark → Prop
  | .moved position => position < size
  | .began _ _ => True
  | .skipped _ start failed stop => start ≤ failed ∧ failed < size ∧ start < stop ∧ stop < size
  | .turned _ start stop => start < stop ∧ stop < size

namespace Scanned

/-- The array of a program. -/
def tape (s : Scanned) : Tape := ⟨s.tokens ++ [s.last], s.limit, s.patience⟩

/-- What a parser may look at. -/
def setting (s : Scanned) (depth : Nat) : Setting := ⟨s.last, s.limit, depth⟩

/-- The tokens that are left at a position, without the end. -/
def left (s : Scanned) (position : Nat) : List Token := s.tokens.drop position

/-- The error is reported at one of the tokens. -/
def Blames (s : Scanned) (e : SyntaxError) : Prop :=
  ∃ t ∈ s.tape.tokens, e.token = t.value ∧ e.start = t.start ∧ e.stop = t.stop

/-- The event concerns one of the tokens. -/
def Concerns (s : Scanned) : Event → Prop
  | .skipped _ e => s.Blames e
  | .unknownCondition word | .unknownTrigger word => word ∈ s.tape.tokens

/-- The cursor is inside the array and at this depth. -/
structure Holds (s : Scanned) (depth : Nat) (cursor : Cursor) : Prop where
  inside : cursor.position < s.tape.size
  depth : cursor.depth = depth

variable (s : Scanned)

/-- More turns are waited for than tokens are left. -/
theorem patient_left (position : Nat) : s.tokens.length - position < s.patience :=
  Nat.lt_of_le_of_lt (Nat.sub_le _ _) s.patient

/-- The token at an index; past the end it is the end. -/
def token (index : Nat) : Token := s.tokens[index]?.getD s.last

/-- There is one token more than there are in front of the end. -/
theorem size_eq : s.tape.size = s.tokens.length + 1 := by simp [tape, Tape.size]

/-- Inside the array the token is there. -/
theorem token_eq {index : Nat} (inside : index < s.tape.size) :
    s.tape.tokens[index]? = some (s.token index) := by
  rw [size_eq] at inside
  rw [tape, token, List.getElem?_append]
  split
  case isTrue before => simp [before]
  case isFalse past =>
    obtain rfl : index = s.tokens.length := by omega
    simp

/-- Past the end of the array stands the last token. -/
theorem token_past {index : Nat} (past : s.tape.size ≤ index) :
    s.tape.tokens[s.tape.size - 1]? = some (s.token index) := by
  rw [size_eq] at past
  have none : s.tokens[index]? = none := List.getElem?_eq_none (by omega)
  rw [size_eq, tape, token, none]
  simp

/-- Every token that is looked at is one of the array. -/
theorem token_mem (index : Nat) : s.token index ∈ s.tape.tokens := by
  rcases Nat.lt_or_ge index s.tape.size with inside | past
  · exact List.mem_of_getElem? (s.token_eq inside)
  · exact List.mem_of_getElem? (s.token_past past)

/-- A token that is not the end stands in front of the end. -/
theorem before_end {index : Nat} (notEnd : (s.token index).kind ≠ .endOfInput) :
    index < s.tokens.length := by
  by_contra past
  rw [token, List.getElem?_eq_none (Nat.le_of_not_lt past)] at notEnd
  exact notEnd s.ends

end Scanned

variable {α β : Type} {s : Scanned} {depth : Nat}

/-- What a run that started at `cursor` came to, compared with the reply of a parser. -/
structure Ran (s : Scanned) (depth : Nat) (cursor : Cursor) (reply : Reply α)
    (result : Except SyntaxError α × Cursor) : Prop where
  holds : s.Holds depth result.2
  forward : cursor.position ≤ result.2.position
  marks : Adds (Mark.Within s.tape.size) cursor.marks result.2.marks
  events : result.2.events = cursor.events ++ reply.events
  concerns : ∀ event ∈ reply.events, s.Concerns event
  outcome : reply.outcome = result.1.map fun value => (value, s.left result.2.position)
  blames : ∀ e, result.1 = .error e → s.Blames e

/-- From this cursor on, the program does what the parser does with the tokens
that are left. -/
def PerformsAt (s : Scanned) (depth : Nat) (m : Program α) (p : Parser α)
    (cursor : Cursor) : Prop :=
  ∃ result, m s.tape cursor = some result ∧
    Ran s depth cursor (p (s.setting depth) (s.left cursor.position)) result

/-- Wherever it starts in the array, the program does what the parser does with the tokens
that are left. -/
def Performs (s : Scanned) (depth : Nat) (m : Program α) (p : Parser α) : Prop :=
  ∀ cursor, s.Holds depth cursor → PerformsAt s depth m p cursor

/-- A parser that takes at least one token where it succeeds. -/
def Advances (p : Parser α) : Prop := ∀ setting tokens,
    YieldsFrom p setting tokens fun _ used _ _ => used ≠ []

/-- A run that has a value. -/
theorem Ran.value {cursor after : Cursor} {position : Nat} {value : α} {events : List Event}
    (holds : s.Holds depth after) (there : after.position = position)
    (forward : cursor.position ≤ position)
    (marks : Adds (Mark.Within s.tape.size) cursor.marks after.marks)
    (noted : after.events = cursor.events ++ events)
    (concerns : ∀ event ∈ events, s.Concerns event) :
    Ran s depth cursor ⟨events, .ok (value, s.left position)⟩ (.ok value, after) where
  holds := holds
  forward := there ▸ forward
  marks := marks
  events := noted
  concerns := concerns
  outcome := there ▸ rfl
  blames := by intro e failed; cases failed

/-- A run that has a value and notes no events. -/
theorem Ran.quiet {cursor after : Cursor} {position : Nat} {value : α}
    (holds : s.Holds depth after)
    (there : after.position = position) (forward : cursor.position ≤ position)
    (marks : Adds (Mark.Within s.tape.size) cursor.marks after.marks)
    (noted : after.events = cursor.events) :
    Ran s depth cursor ⟨[], .ok (value, s.left position)⟩ (.ok value, after) :=
  .value holds there forward marks (noted.trans (List.append_nil _).symm)
    (List.forall_mem_nil _)

/-- A run that failed, whatever value it was for. -/
theorem Ran.failed {cursor after : Cursor} {reply : Reply α} {e : SyntaxError}
    (ran : Ran s depth cursor reply (.error e, after)) :
    Ran s depth cursor (⟨reply.events, .error e⟩ : Reply β) (.error e, after) where
  holds := ran.holds
  forward := ran.forward
  marks := ran.marks
  events := ran.events
  concerns := ran.concerns
  outcome := rfl
  blames := by intro _ failed; cases failed; exact ran.blames e rfl

/-- Where the parser takes a token, the program moves on. -/
theorem Ran.advances {cursor after : Cursor} {p : Parser α} {value : α}
    (ran : Ran s depth cursor (p (s.setting depth) (s.left cursor.position))
      (.ok value, after))
    (advances : Advances p) : cursor.position < after.position := by
  obtain ⟨used, split, some⟩ := advances _ _ s.ends value _ ran.outcome
  have fewer := congrArg List.length split
  have taken := List.length_pos_iff.mpr some
  simp only [Scanned.left, List.length_append, List.length_drop] at fewer
  omega

namespace PerformsAt

variable {m n : Program α} {p q : Parser α} {next : α → Program β} {cont : α → Parser β}
    {cursor : Cursor}

/-- One part, and then another where the first one stopped. -/
theorem bind (first : PerformsAt s depth m p cursor)
    (second : ∀ value after,
      Ran s depth cursor (p (s.setting depth) (s.left cursor.position)) (.ok value, after) →
      PerformsAt s depth (next value) (cont value) after) :
    PerformsAt s depth (m >>= next) (p >>= cont) cursor := by
  obtain ⟨⟨outcome, between⟩, ran, here⟩ := first
  unfold PerformsAt
  rw [Program.bind_eq, ran]
  cases outcome with
  | error e =>
    rw [Parser.bind_error here.outcome]
    exact ⟨(.error e, between), rfl, here.failed⟩
  | ok value =>
    obtain ⟨result, ranOn, there⟩ := second value between here
    refine ⟨result, ranOn, ?_⟩
    rw [Parser.bind_ok here.outcome]
    exact {
      holds := there.holds
      forward := here.forward.trans there.forward
      marks := here.marks.trans there.marks
      events := by rw [there.events, here.events, List.append_assoc]
      concerns := List.forall_mem_append.mpr ⟨here.concerns, there.concerns⟩
      outcome := there.outcome
      blames := there.blames }

/-- A program that leaves the cursor alone and a parser that takes nothing. -/
theorem still {value : α} (ran : m s.tape cursor = some (.ok value, cursor))
    (holds : s.Holds depth cursor) (read : p (s.setting depth) (s.left cursor.position) =
      ⟨[], .ok (value, s.left cursor.position)⟩) :
    PerformsAt s depth m p cursor := by
  refine ⟨_, ran, ?_⟩
  rw [read]
  exact .quiet holds rfl le_rfl (.refl _) rfl

/-- Having a value. -/
theorem pure (value : α) (holds : s.Holds depth cursor) :
    PerformsAt s depth (Pure.pure value) (Pure.pure value) cursor :=
  still rfl holds rfl

/-- Failing at one of the tokens. -/
theorem failAt {token : Token} (cause : SyntaxError.Cause) (seen : token ∈ s.tape.tokens)
    (holds : s.Holds depth cursor) :
    PerformsAt s depth (Program.failAt token cause : Program α) (Parser.failAt token cause)
      cursor := by
  refine ⟨_, rfl, {
    holds := holds
    forward := le_rfl
    marks := .refl _
    events := (List.append_nil _).symm
    concerns := List.forall_mem_nil _
    outcome := rfl
    blames := ?_ }⟩
  intro e failed
  cases failed
  exact ⟨token, seen, rfl, rfl, rfl⟩

/-- Asking for the position, which a parser does not do. -/
theorem position {next : Nat → Program α}
    (rest : PerformsAt s depth (next cursor.position) p cursor) :
    PerformsAt s depth (Program.position >>= next) p cursor := by
  obtain ⟨result, ran, here⟩ := rest
  exact ⟨result, (Program.bind_eq ..).trans ran, here⟩

/-- Asking how long to wait, which a parser does not do. -/
theorem patience {next : Nat → Program α}
    (rest : PerformsAt s depth (next s.patience) p cursor) :
    PerformsAt s depth (Program.patience >>= next) p cursor := by
  obtain ⟨result, ran, here⟩ := rest
  exact ⟨result, (Program.bind_eq ..).trans ran, here⟩

/-- Leaving a mark, which a parser does not do. -/
theorem mark {k : Program Unit} {done : Mark} {next : Unit → Program α}
    (ran : k s.tape cursor = some (.ok (), { cursor with marks := cursor.marks ++ [done] }))
    (within : done.Within s.tape.size)
    (rest : PerformsAt s depth (next ()) p { cursor with marks := cursor.marks ++ [done] }) :
    PerformsAt s depth (k >>= next) p cursor := by
  obtain ⟨result, ranOn, here⟩ := rest
  refine ⟨result, by rw [Program.bind_eq, ran]; exact ranOn, ?_⟩
  exact { here with marks := (Adds.one within).trans here.marks }

/-- What a program sees that looks ahead. -/
theorem peek_eq (cursor : Cursor) (ahead : Nat) :
    Program.peek ahead s.tape cursor = some (.ok (s.token (cursor.position + ahead)),
      cursor) := by
  simp only [Program.peek, Program.bind_eq, Program.input, Program.position, Option.bind_some]
  split
  case isTrue past => simp [Program.tokenAt, s.token_past past]
  case isFalse inside => simp [Program.tokenAt, s.token_eq (Nat.lt_of_not_le inside)]

/-- The program looks ahead. -/
theorem programLooks {ahead : Nat} {next : Token → Program α}
    (rest : PerformsAt s depth (next (s.token (cursor.position + ahead))) p cursor) :
    PerformsAt s depth (Program.peek ahead >>= next) p cursor := by
  obtain ⟨result, ran, here⟩ := rest
  exact ⟨result, by rw [Program.bind_eq, peek_eq]; exact ran, here⟩

/-- The parser looks ahead. -/
theorem parserLooks {ahead : Nat} {cont : Token → Parser α}
    (rest : PerformsAt s depth m (cont (s.token (cursor.position + ahead))) cursor) :
    PerformsAt s depth m (Parser.peek ahead >>= cont) cursor := by
  have seen : (Parser.peek ahead (s.setting depth) (s.left cursor.position)).outcome =
      .ok (s.token (cursor.position + ahead), s.left cursor.position) := by
    rw [Parser.peek, Scanned.left, List.getElem?_drop]
    rfl
  obtain ⟨result, ran, here⟩ := rest
  refine ⟨result, ran, ?_⟩
  rw [Parser.bind_ok seen]
  exact here

/-- Both look at the next token. -/
theorem look {next : Token → Program α} {cont : Token → Parser α}
    (rest : PerformsAt s depth (next (s.token cursor.position))
      (cont (s.token cursor.position)) cursor) :
    PerformsAt s depth (Program.current >>= next) (Parser.current >>= cont) cursor :=
  programLooks (parserLooks rest)

/-- Both look one token further. -/
theorem lookAhead {next : Token → Program α} {cont : Token → Parser α}
    (rest : PerformsAt s depth (next (s.token (cursor.position + 1)))
      (cont (s.token (cursor.position + 1))) cursor) :
    PerformsAt s depth (Program.peek 1 >>= next) (Parser.peek 1 >>= cont) cursor :=
  programLooks (parserLooks rest)

/-- Taking a token. -/
theorem advance (holds : s.Holds depth cursor) :
    PerformsAt s depth Program.advance Parser.advance cursor := by
  have read : Parser.advance (s.setting depth) (s.left cursor.position) =
      ⟨[], .ok (s.token cursor.position, s.left (cursor.position + 1))⟩ := by
    rw [Parser.advance, Scanned.left, List.head?_drop, List.tail_drop]
    rfl
  have inside := s.size_eq ▸ holds.inside
  unfold PerformsAt
  simp only [read, Program.advance, Program.current, Program.bind_eq, peek_eq,
    Program.input, Program.position, Option.bind_some]
  by_cases before : cursor.position < s.tokens.length
  · have further : cursor.position + 1 < s.tape.size := by rw [s.size_eq]; omega
    rw [if_pos (by rw [s.size_eq]; omega)]
    exact ⟨_, rfl, .quiet ⟨further, holds.depth⟩ rfl (Nat.le_succ _) (.one further) rfl⟩
  · rw [if_neg (by rw [s.size_eq]; omega)]
    -- At the end nothing is left, and nothing more is left one token further.
    have same : s.left (cursor.position + 1) = s.left cursor.position := by
      rw [Scanned.left, Scanned.left, List.drop_of_length_le (by omega),
        List.drop_of_length_le (by omega)]
    rw [same]
    exact ⟨_, rfl, .quiet holds rfl le_rfl (.refl _) rfl⟩

/-- Taking a token that is not the end. -/
theorem take {next : Token → Program α} {cont : Token → Parser α}
    (holds : s.Holds depth cursor) (notEnd : (s.token cursor.position).kind ≠ .endOfInput)
    (rest : ∀ after, s.Holds depth after → cursor.position < after.position →
      PerformsAt s depth (next (s.token cursor.position)) (cont (s.token cursor.position))
    after) :
    PerformsAt s depth (Program.advance >>= next) (Parser.advance >>= cont) cursor := by
  refine bind (advance holds) fun value after ran => ?_
  have outcome := ran.outcome
  rw [Parser.advance, Scanned.left, List.head?_drop, List.tail_drop] at outcome
  obtain ⟨rfl, moved⟩ := Prod.mk.inj (Except.ok.inj outcome)
  have before := s.before_end notEnd
  have fewer := congrArg List.length moved
  simp only [Scanned.left, List.length_drop] at fewer
  exact rest after ran.holds (by omega)

/-- One level deeper, and back. -/
theorem nested (holds : s.Holds depth cursor)
    (inner : PerformsAt s (depth + 1) m p { cursor with depth := cursor.depth + 1 }) :
    PerformsAt s depth (Program.nested m) (Parser.nested p) cursor := by
  have sameTest : (decide (0 < s.tape.limit) && decide (s.tape.limit < cursor.depth + 1)) =
      (decide (0 < (s.setting depth).limit) &&
        decide ((s.setting depth).limit < ((s.setting depth).depth : Int) + 1)) := by
    rw [holds.depth]
    rfl
  unfold PerformsAt Parser.nested
  rw [Program.nested_eq, sameTest]
  split
  case isTrue forbidden => exact look (failAt _ (s.token_mem _) holds)
  case isFalse allowed =>
    obtain ⟨⟨outcome, after⟩, ran, here⟩ := inner
    rw [ran]
    refine ⟨_, rfl, { here with holds := ⟨here.holds.inside, ?_⟩ }⟩
    have deeper := here.holds.depth
    dsimp only [Program.leave] at deeper ⊢
    omega

end PerformsAt

namespace Performs

variable {m n : Program α} {p q : Parser α} {next : α → Program β} {cont : α → Parser β}

/-- Having a value. -/
theorem pure (value : α) : Performs s depth (Pure.pure value) (Pure.pure value) :=
  fun _ holds => .pure value holds

/-- Failing at one of the tokens. -/
theorem failAt {token : Token} {cause : SyntaxError.Cause} (seen : token ∈ s.tape.tokens) :
    Performs s depth (Program.failAt token cause : Program α) (Parser.failAt token cause) :=
  fun _ holds => .failAt cause seen holds

/-- One part and then another. -/
theorem bind (first : Performs s depth m p)
    (second : ∀ value, Performs s depth (next value) (cont value)) :
    Performs s depth (m >>= next) (p >>= cont) :=
  fun cursor holds => (first cursor holds).bind fun value after ran =>
    second value after ran.holds

/-- Either of two parts. -/
theorem ite {condition : Prop} [Decidable condition] (holds : Performs s depth m p)
    (fails : Performs s depth n q) :
    Performs s depth (if condition then m else n) (if condition then p else q) := by
  split
  · exact holds
  · exact fails

/-- Looking at the next token. -/
theorem look {next : Token → Program α} {cont : Token → Parser α}
    (rest : ∀ t ∈ s.tape.tokens, Performs s depth (next t) (cont t)) :
    Performs s depth (Program.current >>= next) (Parser.current >>= cont) :=
  fun cursor holds => .look (rest _ (s.token_mem _) cursor holds)

/-- Looking one token further. -/
theorem lookAhead {next : Token → Program α} {cont : Token → Parser α}
    (rest : ∀ t ∈ s.tape.tokens, Performs s depth (next t) (cont t)) :
    Performs s depth (Program.peek 1 >>= next) (Parser.peek 1 >>= cont) :=
  fun cursor holds => .lookAhead (rest _ (s.token_mem _) cursor holds)

/-- Taking a token. -/
theorem advance : Performs s depth Program.advance Parser.advance :=
  fun _ holds => .advance holds

/-- Comparing the kind of the next token. -/
theorem check (kind : Kind) : Performs s depth (Program.check kind) (Parser.check kind) :=
  look fun _ _ => pure _

/-- Taking a token of a kind. -/
theorem expect (kind : Kind) : Performs s depth (Program.expect kind) (Parser.expect kind) :=
  look fun _ seen => .ite advance (failAt seen)

/-- Noting an event that concerns one of the tokens. -/
theorem note {event : Event} (concerns : s.Concerns event) :
    Performs s depth (Program.note event) (Parser.note event) := by
  intro cursor holds
  have all : ∀ noted ∈ [event], s.Concerns noted := List.forall_mem_singleton.mpr concerns
  exact ⟨_, rfl, .value ⟨holds.inside, holds.depth⟩ rfl le_rfl (.refl _) rfl all⟩

/-- One level deeper, and back. -/
theorem nested (inner : Performs s (depth + 1) m p) :
    Performs s depth (Program.nested m) (Parser.nested p) :=
  fun _ holds => .nested holds (inner _ ⟨holds.inside, by simp [holds.depth]⟩)

/-- Reading between parentheses. -/
theorem parenthesized (inner : Performs s depth m p) :
    Performs s depth (Program.parenthesized m) (Parser.parenthesized p) :=
  (expect _).bind fun _ => inner.bind fun value => (expect _).bind fun _ => pure value

end Performs

/-- Skipping by one token of the array: pass it, find the semicolon there, or meet the end
of the list. -/
theorem separatorFrom_eq {index : Nat} (before : index < s.tokens.length) (depth : Nat) :
    Program.separatorFrom s.tape depth index =
      match pass depth (s.token index).kind with
      | some d => Program.separatorFrom s.tape d (index + 1)
      | none => if (s.token index).kind = .semicolon then some index else none := by
  have inside : index < s.tape.size := by rw [s.size_eq]; omega
  have here : s.tape.tokens.get ⟨index, inside⟩ = s.token index :=
    Option.some.inj ((List.getElem?_eq_getElem inside).symm.trans (s.token_eq inside))
  have notEnd : (s.token index).kind ≠ .endOfInput := by
    rw [Scanned.token, List.getElem?_eq_getElem before]
    exact s.inside _ (List.getElem_mem before)
  rw [Program.separatorFrom, dif_pos inside, here]
  generalize (s.token index).kind = kind at notEnd ⊢
  split
  case h_1 => simp only [pass, deepen, reduceCtorEq, and_false, if_false]
  case h_2 => simp only [pass, deepen, reduceCtorEq, and_false, if_false]
  case h_3 =>
    have closed : (if 0 < depth then depth - 1 else depth) = depth - 1 := by split <;> omega
    simp only [pass, deepen, reduceCtorEq, and_false, if_false, closed]
  case h_4 => by_cases outside : depth = 0 <;> simp [pass, deepen, outside]
  case h_5 => by_cases outside : depth = 0 <;> simp [pass, deepen, outside]
  case h_6 => exact absurd rfl notEnd
  case h_7 isBrace isParen isClose isEnd isSemicolon _ =>
    have stays : deepen depth kind = some depth := by
      unfold deepen
      split
      case h_5 => rfl
      all_goals contradiction
    rw [pass, if_neg fun outside => isSemicolon outside.2, stays]

/-- Behind the last token there is no semicolon. -/
theorem separatorFrom_past {index : Nat} (past : s.tokens.length ≤ index) (depth : Nat) :
    Program.separatorFrom s.tape depth index = none := by
  rw [Program.separatorFrom]
  split
  case isTrue inside =>
    have atEnd : s.tape.tokens.get ⟨index, inside⟩ = s.last := by
      have bound := s.size_eq ▸ inside
      obtain rfl : index = s.tokens.length := by omega
      simp [Scanned.tape]
    rw [atEnd, s.ends]
  case isFalse => rfl

/-- The program finds a semicolon behind which it goes on where the parser finds tokens
behind one. -/
theorem separatorFrom_left (depth index : Nat) :
    match Program.separatorFrom s.tape depth index with
    | some found =>
      index ≤ found ∧ found < s.tokens.length ∧
        afterSeparator? depth (s.left index) = some (s.left (found + 1))
    | none => afterSeparator? depth (s.left index) = none := by
  induction leftHere : s.left index generalizing depth index with
  | nil =>
    rw [separatorFrom_past (List.drop_eq_nil_iff.mp leftHere)]
    rfl
  | cons t rest inductionHypothesis =>
    have before : index < s.tokens.length := by
      by_contra past
      rw [Scanned.left, List.drop_of_length_le (Nat.le_of_not_lt past)] at leftHere
      cases leftHere
    have isNext : s.token index = t := by
      rw [Scanned.token, ← List.head?_drop]
      exact congrArg (fun tokens => tokens.head?.getD s.last) leftHere
    have further : s.left (index + 1) = rest := by
      rw [Scanned.left, ← List.tail_drop]
      exact congrArg List.tail leftHere
    rw [separatorFrom_eq before, afterSeparator?_cons, isNext]
    cases pass depth t.kind with
    | some d =>
      have later := inductionHypothesis d (index + 1) further
      dsimp only
      cases there : Program.separatorFrom s.tape d (index + 1) with
      | some found =>
        rw [there] at later
        exact ⟨Nat.le_of_succ_le later.1, later.2⟩
      | none =>
        rw [there] at later
        exact later
    | none =>
      by_cases isSemicolon : t.kind = .semicolon
      · simpa [isSemicolon, further] using before
      · simp [isSemicolon]

/-- Skipping leaves fewer tokens. -/
theorem afterSeparator?_shorter {depth : Nat} {tokens left : List Token}
    (found : afterSeparator? depth tokens = some left) : left.length < tokens.length := by
  induction tokens generalizing depth with
  | nil => cases found
  | cons t tokens inductionHypothesis =>
    rw [afterSeparator?_cons] at found
    cases passed : pass depth t.kind with
    | some d =>
      rw [passed] at found
      exact (inductionHypothesis found).trans (Nat.lt_succ_self _)
    | none =>
      rw [passed] at found
      by_cases isSemicolon : t.kind = .semicolon
      · rw [if_pos isSemicolon] at found
        obtain rfl := Option.some.inj found
        exact Nat.lt_succ_self _
      · rw [if_neg isSemicolon] at found
        cases found

section Lists

variable {list : Text} {optional : Bool} {m : Program α} {p : Parser α}

/-- An entry with its separator takes a token where the entry does. -/
theorem Advances.separated (advances : Advances p) : Advances (separated list optional p) := by
  intro setting tokens
  refine YieldsFrom.bind (advances setting tokens) fun _ used value left _ taken =>
    YieldsFrom.look fun t seen => ?_
  refine YieldsFrom.ite (fun isSemicolon => ?_) fun _ =>
    .ite (fun _ => .pure (by simpa using taken)) fun _ => .failAt t _
  exact YieldsFrom.take seen (by simp [isSemicolon]) fun _ _ => .pure (by simp)

/-- Whether an entry is read or skipped, a token is taken. -/
theorem Advances.recovering (advances : Advances p) : Advances (recovering list p) := by
  intro setting tokens ends value left read
  obtain ⟨entered, rfl, outcome⟩ | ⟨e, rfl, -, found⟩ := recovering_cases read
  · exact advances setting tokens ends entered left outcome
  · obtain ⟨used, rfl⟩ := afterSeparator?_suffix found
    refine ⟨used, rfl, ?_⟩
    rintro rfl
    exact absurd (afterSeparator?_shorter found) (lt_irrefl _)

/-- An entry with its separator. -/
theorem separated_performs (inner : Performs s depth m p) :
    Performs s depth (Program.separated list optional m) (separated list optional p) :=
  inner.bind fun value => .look fun _ seen =>
    .ite (Performs.advance.bind fun _ => .pure value) (.ite (.pure value) (.failAt seen))

/-- Skipping an entry that failed: the cursor is set back to the entry and moved behind
its separator. -/
theorem settle_error (e : SyntaxError) (tape : Tape) (cursor : Cursor) (start : Nat) :
    (Program.settle list start (.error e) : Program (Option α)) tape cursor =
      match Program.separatorFrom tape 0 start with
      | some found => some (.ok none,
        { position := found + 1, depth := cursor.depth,
          events := cursor.events ++ [.skipped list e],
          marks := cursor.marks ++ [.moved (found + 1)] ++
            [.skipped list start cursor.position (found + 1)] })
      | none => some (.error e, cursor) := by
  simp only [Program.settle, Program.recover, Program.bind_eq, Program.position,
    Program.input, Option.bind_some]
  cases Program.separatorFrom tape 0 start <;> rfl

/-- An entry that was read, with the mark of the turn. -/
theorem Ran.turned {cursor after : Cursor} {value : α}
    (ran : Ran s depth cursor (p (s.setting depth) (s.left cursor.position)) (.ok value,
      after)) (advances : Advances p) :
    Ran s depth cursor (recovering list p (s.setting depth) (s.left cursor.position))
      (.ok (some value),
        { after with
          marks := after.marks ++
            [.turned (.list list) cursor.position after.position] }) := by
  have turned : Mark.Within s.tape.size
      (.turned (.list list) cursor.position after.position) :=
    ⟨ran.advances advances, ran.holds.inside⟩
  rw [recovering_read ran.outcome]
  exact .value ⟨ran.holds.inside, ran.holds.depth⟩ rfl ran.forward
    (ran.marks.trans (.one turned)) ran.events ran.concerns

/-- An entry that failed and is skipped, with the marks of the skip and of the turn. -/
theorem Ran.skipped {cursor after : Cursor} {e : SyntaxError} {found : Nat}
    (ran : Ran s depth cursor (p (s.setting depth) (s.left cursor.position)) (.error e, after))
    (behind : cursor.position ≤ found) (before : found < s.tokens.length)
    (separates : afterSeparator? 0 (s.left cursor.position) = some (s.left (found + 1))) :
    Ran s depth cursor (recovering list p (s.setting depth) (s.left cursor.position))
      (.ok none,
        { position := found + 1
          depth := after.depth
          events := after.events ++ [.skipped list e]
          marks := after.marks ++ [.moved (found + 1)] ++
            [.skipped list cursor.position after.position (found + 1)] ++
            [.turned (.list list) cursor.position (found + 1)] }) := by
  have inside : found + 1 < s.tape.size := by rw [s.size_eq]; omega
  have turned : cursor.position < found + 1 := Nat.lt_succ_of_le behind
  have moved : Adds (Mark.Within s.tape.size) after.marks
      (after.marks ++ [.moved (found + 1)]) := .one inside
  have skips : Mark.Within s.tape.size (.skipped list cursor.position after.position
      (found + 1)) :=
    ⟨ran.forward, ran.holds.inside, turned, inside⟩
  rw [recovering_skipped ran.outcome separates]
  refine .value ⟨inside, ran.holds.depth⟩ rfl turned.le ?_ ?_ ?_
  · exact ran.marks.trans (moved.trans ((Adds.one skips).trans (.one ⟨turned, inside⟩)))
  · exact (congrArg (· ++ [Event.skipped list e]) ran.events).trans (List.append_assoc ..)
  · exact List.forall_mem_append.mpr ⟨ran.concerns,
      List.forall_mem_singleton.mpr (ran.blames e rfl)⟩

/-- What becomes of an entry that was read or that failed, up to the mark of the turn. -/
theorem settle_performs (inner : Performs s depth m p) (advances : Advances p)
    {cursor : Cursor} (holds : s.Holds depth cursor) :
    PerformsAt s depth
      (do
        let outcome ← Program.attempt m
        let value ← Program.settle list cursor.position outcome
        Program.mark (.turned (.list list) cursor.position (← Program.position))
        return value)
      (recovering list p) cursor := by
  obtain ⟨⟨outcome, after⟩, ran, here⟩ := inner cursor holds
  have attempted : Program.attempt m s.tape cursor = some (.ok outcome, after) :=
    congrArg (Option.bind · _) ran
  unfold PerformsAt
  rw [Program.bind_eq, attempted]
  simp only [Option.bind_some, Program.bind_eq]
  cases outcome with
  | ok value => exact ⟨_, rfl, here.turned advances⟩
  | error e =>
    have skips := separatorFrom_left (s := s) 0 cursor.position
    rw [settle_error]
    cases there : Program.separatorFrom s.tape 0 cursor.position with
    | some found =>
      rw [there] at skips
      obtain ⟨behind, before, separates⟩ := skips
      exact ⟨_, rfl, here.skipped behind before separates⟩
    | none =>
      rw [there] at skips
      rw [recovering_stuck here.outcome skips]
      exact ⟨_, rfl, here.failed⟩

/-- One turn of a list. The entry is read, or it is skipped from where it began. -/
theorem turn_performs (inner : Performs s depth m p) (advances : Advances p) :
    Performs s depth (Program.turn list optional m)
      (recovering list (separated list optional p)) := by
  intro cursor holds
  refine .position (.mark rfl trivial ?_)
  have begun :
      s.Holds depth { cursor with marks := cursor.marks ++ [.began list cursor.depth] } :=
    ⟨holds.inside, holds.depth⟩
  exact settle_performs (separated_performs inner) advances.separated begun

/-- The turns of a list, where more turns are waited for than tokens are left. -/
theorem entriesFrom_performs (inner : Performs s depth m p) (advances : Advances p)
    (fuel turns : Nat) {cursor : Cursor}
    (holds : s.Holds depth cursor) (enough : s.tokens.length - cursor.position < fuel)
    (patient : s.tokens.length - cursor.position < turns) :
    PerformsAt s depth (Program.entriesFrom list optional m turns)
      (entriesWithin list optional p fuel) cursor := by
  induction fuel generalizing turns cursor with
  | zero => exact absurd enough (Nat.not_lt_zero _)
  | succ fuel inductionHypothesis =>
    obtain ⟨turns, rfl⟩ := Nat.exists_eq_add_one_of_ne_zero (Nat.ne_zero_of_lt patient)
    rw [Program.entriesFrom, entriesWithin]
    refine .look ?_
    by_cases isClose : (s.token cursor.position).kind = .braceClose
    · rw [if_pos isClose, if_pos isClose]
      exact (Performs.advance.bind fun _ => .pure []) cursor holds
    rw [if_neg isClose, if_neg isClose]
    by_cases isEnd : (s.token cursor.position).kind = .endOfInput
    · rw [if_pos isEnd, if_pos isEnd]
      exact .failAt _ (s.token_mem _) holds
    rw [if_neg isEnd, if_neg isEnd]
    refine .bind (turn_performs inner advances cursor holds) fun value after ran => ?_
    have further : cursor.position < after.position :=
      ran.advances advances.separated.recovering
    have before := s.before_end isEnd
    refine .bind (inductionHypothesis turns ran.holds (by omega) (by omega))
      fun values _ ran => .pure _ ran.holds

/-- Lists of entries. -/
theorem entries_performs (inner : Performs s depth m p) (advances : Advances p) :
    Performs s depth (Program.entries list optional m) (entries list optional p) := by
  refine (Performs.expect _).bind fun _ cursor holds => .patience ?_
  have performs : PerformsAt s depth (Program.entriesFrom list optional m s.patience)
      (entriesWithin list optional p (s.tokens.length - cursor.position + 1)) cursor :=
    entriesFrom_performs inner advances _ _ holds (Nat.lt_succ_self _)
      (s.patient_left cursor.position)
  rw [← List.length_drop] at performs
  exact performs

end Lists

end Persona.Grammar
