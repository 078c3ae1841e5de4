import Persona.Proofs.Grammar.Program

/-!
# The nesting counter

A program raises the nesting counter on the way into a nested part and lowers it on the
way out, and it lowers it on many ways: where the limit forbids the part, where the part
ends, and where it fails. Whatever the tokens are and whatever the limit is, a program
that comes to an end leaves the counter as it found it. So every entry of a list is begun
at the same depth, however many entries before it failed.

Proof: This is a judgment on programs with one rule for each way in which they are put
together. Nothing is assumed of the tokens, so a loop need not end; of one that does it is
shown by induction on the turns it takes.
-/

namespace Persona.Grammar

variable {α β : Type}

/-- Marks were added to those of before, and the condition holds of them. -/
def Adds (holds : Mark → Prop) (before after : List Mark) : Prop :=
  ∃ added, after = before ++ added ∧ ∀ done ∈ added, holds done

namespace Adds

variable {holds : Mark → Prop} {before between after : List Mark}

/-- No mark was added. -/
theorem refl (marks : List Mark) : Adds holds marks marks :=
  ⟨[], (List.append_nil marks).symm, nofun⟩

/-- One mark was added. -/
theorem one {done : Mark} (held : holds done) : Adds holds before (before ++ [done]) :=
  ⟨[done], rfl, by simpa using held⟩

/-- Marks were added, and then others. -/
theorem trans (first : Adds holds before between) (second : Adds holds between after) :
    Adds holds before after := by
  obtain ⟨early, rfl, heldEarly⟩ := first
  obtain ⟨late, rfl, heldLate⟩ := second
  exact ⟨early ++ late, List.append_assoc .., List.forall_mem_append.mpr ⟨heldEarly, heldLate⟩⟩

/-- What holds of the marks of before holds of all. -/
theorem forall_mem (added : Adds holds before after) (held : ∀ done ∈ before, holds done) :
    ∀ done ∈ after, holds done := by
  obtain ⟨more, rfl, heldMore⟩ := added
  exact List.forall_mem_append.mpr ⟨held, heldMore⟩

/-- A weaker condition holds of what was added. -/
theorem imp {weaker : Mark → Prop} (added : Adds holds before after)
    (implies : ∀ done, holds done → weaker done) :
    Adds weaker before after := by
  obtain ⟨more, same, held⟩ := added
  exact ⟨more, same, fun done member => implies done (held done member)⟩

end Adds

/-- If the mark is that of an entry, entries are allowed and this one was begun at
this depth. -/
def Mark.BeganAt (lists : Bool) (base : Int) : Mark → Prop
  | .began _ depth => lists = true ∧ depth = base
  | .moved _ | .skipped .. | .turned .. => True

/-- Where no entries are allowed, there are none that were begun elsewhere. -/
theorem Mark.BeganAt.ofFlat {lists : Bool} {base other : Int} (done : Mark)
    (held : done.BeganAt false base) :
    done.BeganAt lists other := by
  cases done with
  | began => cases held.1
  | moved | skipped | turned => trivial

namespace Program

/-- The second part runs where the first one stopped, unless that has failed. -/
theorem bind_eq (m : Program α) (next : α → Program β) (tape : Tape) (cursor : Cursor) :
    (m >>= next) tape cursor = (m tape cursor).bind fun
      | (.ok value, after) => next value tape after
      | (.error e, after) => some (.error e, after) := by
  change Option.bind _ _ = _
  congr 1
  funext ⟨outcome, after⟩
  cases outcome <;> rfl

/-- Nothing runs after a failure. -/
theorem fail_bind (cause : Token → SyntaxError.Cause) (next : α → Program β) :
    fail cause >>= next = fail cause := by
  rw [fail, bind_assoc]
  rfl

/-- Where the limit allows it, the counter is raised on the way in. Where it does not, it
is lowered again. -/
theorem enter_eq (tape : Tape) (cursor : Cursor) :
    enter tape cursor =
      if 0 < tape.limit && tape.limit < cursor.depth + 1 then
        (fail fun _ => .tooDeep tape.limit : Program Unit) tape cursor
      else some (.ok (), { cursor with depth := cursor.depth + 1 }) := by
  have lowered : { cursor with depth := cursor.depth + 1 + -1 } = cursor := by
    rw [Int.add_neg_cancel_right]
  simp only [enter, bind_eq, deepen, input, depth, Option.bind_some]
  split
  · rw [bind_eq, deepen, lowered, Option.bind_some]
  · rfl

/-- On the way out of a nested part the counter is lowered, however the part ended. -/
theorem nested_eq (m : Program α) (tape : Tape) (cursor : Cursor) :
    nested m tape cursor =
      if 0 < tape.limit && tape.limit < cursor.depth + 1 then
        (fail fun _ => .tooDeep tape.limit : Program α) tape cursor
      else (m tape { cursor with depth := cursor.depth + 1 }).map fun (outcome, after) =>
      (outcome, leave after) := by
  rw [nested, bind_eq, enter_eq]
  split
  · exact (bind_eq _ (fun _ => leaving m) ..).symm.trans
      (congrFun (congrFun (fail_bind _ _) tape) cursor)
  · rw [Option.bind_some, Option.map_eq_bind]
    rfl

/-- Wherever the program starts, if it comes to an end, the depth is the same as before,
whether it has a value or an error; and all entries were begun at that depth, if there are
lists at all. -/
def Keeps (lists : Bool) (m : Program α) : Prop :=
  ∀ tape cursor result, m tape cursor = some result →
    result.2.depth = cursor.depth ∧
      Adds (Mark.BeganAt lists cursor.depth) cursor.marks result.2.marks

namespace Keeps

variable {lists : Bool} {m n : Program α} {next : α → Program β}

/-- A program that leaves the cursor alone. -/
theorem still (same : ∀ tape cursor result, m tape cursor = some result → result.2 = cursor) :
    Keeps lists m := by
  intro tape cursor result ran
  rw [same tape cursor result ran]
  exact ⟨rfl, .refl _⟩

/-- Having a value. -/
theorem pure (value : α) : Keeps lists (Pure.pure value) :=
  still fun _ _ _ ran => by cases ran; rfl

/-- Stopping with an error. -/
theorem stop (e : SyntaxError) : Keeps lists (Program.stop e : Program α) :=
  still fun _ _ _ ran => by cases ran; rfl

/-- Stopping at a token. -/
theorem failAt (token : Token) (cause : SyntaxError.Cause) :
    Keeps lists (Program.failAt token cause : Program α) :=
  stop _

/-- One part and then another. -/
theorem bind (first : Keeps lists m) (second : ∀ value, Keeps lists (next value)) :
    Keeps lists (m >>= next) := by
  intro tape cursor result ran
  rw [bind_eq, Option.bind_eq_some_iff] at ran
  obtain ⟨⟨outcome, between⟩, ranFirst, ranSecond⟩ := ran
  obtain ⟨there, added⟩ := first tape cursor _ ranFirst
  cases outcome with
  | error e =>
    cases ranSecond
    exact ⟨there, added⟩
  | ok value =>
    obtain ⟨back, more⟩ := second value tape between result ranSecond
    rw [there] at back more
    exact ⟨back, added.trans more⟩

/-- Either of two programs. -/
theorem ite {condition : Prop} [Decidable condition] (holds : Keeps lists m)
    (fails : Keeps lists n) :
    Keeps lists (if condition then m else n) := by
  split
  · exact holds
  · exact fails

/-- Asking for the position. -/
theorem position : Keeps lists Program.position := still fun _ _ _ ran => by cases ran; rfl

/-- Leaving a mark that is not that of an entry. -/
theorem mark {done : Mark} (other : ∀ base, done.BeganAt lists base) :
    Keeps lists (Program.mark done) := by
  rintro tape cursor _ ⟨⟩
  exact ⟨rfl, .one (other _)⟩

/-- Noting an event. -/
theorem note (event : Event) : Keeps lists (Program.note event) := by
  rintro tape cursor _ ⟨⟩
  exact ⟨rfl, .refl _⟩

/-- Moving. -/
theorem moveTo (position : Nat) : Keeps lists (Program.moveTo position) := by
  rintro tape cursor _ ⟨⟩
  exact ⟨rfl, .one trivial⟩

/-- Asking for the tape. -/
theorem input : Keeps lists Program.input := still fun _ _ _ ran => by cases ran; rfl

/-- Asking how long to wait. -/
theorem patience : Keeps lists Program.patience := still fun _ _ _ ran => by cases ran; rfl

/-- Waiting no longer. -/
theorem never : Keeps lists (Program.never : Program α) := by
  intro tape cursor result ran
  cases ran

/-- Looking ahead. -/
theorem peek (ahead : Nat) : Keeps lists (Program.peek ahead) := by
  have looks (index : Nat) : Keeps lists (tokenAt index) := by
    refine still fun tape cursor result ran => ?_
    obtain ⟨token, -, rfl⟩ := Option.map_eq_some_iff.mp ran
    rfl
  exact input.bind fun _ => position.bind fun _ => .ite (looks _) (looks _)

/-- Looking at the next token. -/
theorem current : Keeps lists Program.current := peek 0

/-- Taking a token. -/
theorem advance : Keeps lists Program.advance := by
  refine current.bind fun token => input.bind fun _ => position.bind fun _ => ?_
  exact .ite ((moveTo _).bind fun _ => pure token) (pure token)

/-- Comparing the kind of the next token. -/
theorem check (kind : Kind) : Keeps lists (Program.check kind) := current.bind fun _ => pure _

/-- Taking a token of a kind. -/
theorem expect (kind : Kind) : Keeps lists (Program.expect kind) :=
  current.bind fun t => .ite advance (failAt t _)

/-- Going on after an error. -/
theorem attempt (keeps : Keeps lists m) : Keeps lists (Program.attempt m) := by
  intro tape cursor result ran
  obtain ⟨⟨outcome, after⟩, ranInside, same⟩ := Option.bind_eq_some_iff.mp ran
  cases same
  exact keeps tape cursor _ ranInside

/-- One level deeper, and back. No list may be inside. -/
theorem nested (inner : Keeps false m) : Keeps lists (Program.nested m) := by
  intro tape cursor result ran
  rw [nested_eq] at ran
  split at ran
  case isTrue forbidden => exact (current.bind fun t => failAt t _) tape cursor result ran
  case isFalse allowed =>
    obtain ⟨⟨outcome, after⟩, ranInside, rfl⟩ := Option.map_eq_some_iff.mp ran
    obtain ⟨there, added⟩ := inner tape _ _ ranInside
    refine ⟨?_, added.imp Mark.BeganAt.ofFlat⟩
    dsimp only [leave] at there ⊢
    rw [there, Int.add_sub_cancel]

/-- Reading between parentheses. -/
theorem parenthesized (inner : Keeps lists m) : Keeps lists (Program.parenthesized m) :=
  (expect _).bind fun _ => inner.bind fun value => (expect _).bind fun _ => pure value

end Keeps

section Lists

variable {lists : Bool} {m : Program α}

/-- Moving past a separator. -/
theorem recover_keeps (start : Nat) : Keeps lists (recover start) := by
  refine Keeps.input.bind fun tape => ?_
  cases separatorFrom tape 0 start with
  | some index => exact (Keeps.moveTo _).bind fun _ => .pure true
  | none => exact .pure false

/-- Skipping an entry that failed. -/
theorem settle_keeps (list : Text) (start : Nat) (outcome : Except SyntaxError α) :
    Keeps lists (settle list start outcome) := by
  cases outcome with
  | ok value => exact .pure _
  | error e =>
    have marks (failed stop : Nat) : Keeps lists (mark (.skipped list start failed stop)) :=
      .mark fun _ => trivial
    refine Keeps.position.bind fun failed => (recover_keeps start).bind fun _ =>
      .ite ?_ (.stop e)
    exact Keeps.position.bind fun stop => (marks failed stop).bind fun _ =>
      (Keeps.note _).bind fun _ => .pure _

/-- An entry with its separator. -/
theorem separated_keeps (list : Text) (optional : Bool) (keeps : Keeps lists m) :
    Keeps lists (separated list optional m) :=
  keeps.bind fun value => Keeps.current.bind fun t =>
    .ite (Keeps.advance.bind fun _ => .pure value) (.ite (.pure value) (.failAt t _))

/-- One turn of a list: its entry is begun where the list is. -/
theorem turn_keeps (list : Text) (optional : Bool) (keeps : Keeps true m) :
    Keeps true (turn list optional m) := by
  have begins : Keeps true (beginEntry list) := by
    rintro tape cursor _ ⟨⟩
    exact ⟨rfl, .one ⟨rfl, rfl⟩⟩
  have turns (start stop : Nat) : Keeps true (mark (.turned (.list list) start stop)) :=
    .mark fun _ => trivial
  refine Keeps.position.bind fun start => begins.bind fun _ => ?_
  refine (separated_keeps list optional keeps).attempt.bind fun outcome => ?_
  refine (settle_keeps list start outcome).bind fun value => ?_
  exact Keeps.position.bind fun stop => (turns start stop).bind fun _ => .pure value

/-- The turns of a list. -/
theorem entriesFrom_keeps (list : Text) (optional : Bool) (keeps : Keeps true m)
    (turns : Nat) :
    Keeps true (entriesFrom list optional m turns) := by
  induction turns with
  | zero => exact .never
  | succ turns inductionHypothesis =>
    refine Keeps.current.bind fun t => .ite (Keeps.advance.bind fun _ => .pure [])
      (.ite (.failAt t _) ?_)
    exact (turn_keeps list optional keeps).bind fun value =>
      inductionHypothesis.bind fun values => .pure _

/-- Lists of entries. -/
theorem entries_keeps (list : Text) (optional : Bool) (keeps : Keeps true m) :
    Keeps true (entries list optional m) :=
  (Keeps.expect _).bind fun _ => Keeps.patience.bind fun turns =>
    entriesFrom_keeps list optional keeps turns

end Lists

section Rules

variable {lists : Bool}

/-- Names. -/
theorem name_keeps (role : Text) : Keeps lists (name role) :=
  Keeps.current.bind fun t => .ite (Keeps.advance.bind fun _ => .pure _) (.failAt t _)

/-- Strings. -/
theorem string_keeps : Keeps lists string := (Keeps.expect _).bind fun _ => .pure _

/-- Units of time. -/
theorem timeUnit_keeps : Keeps lists timeUnit := by
  refine Keeps.current.bind fun t => ?_
  cases if t.kind = .name then TimeUnit.ofWord? t.value else none with
  | some unit => exact Keeps.advance.bind fun _ => .pure unit
  | none => exact .failAt t _

/-- Levels. -/
theorem level_keeps : Keeps lists level := by
  refine Keeps.current.bind fun t => ?_
  cases if t.kind = .name || t.kind = .string then Level.ofWord? t.value else none with
  | some level => exact Keeps.advance.bind fun _ => .pure level
  | none => exact .failAt t _

/-- Literals. -/
theorem literal_keeps (token : Token) : Keeps lists (literal token) := by
  unfold literal
  cases Binary64.read? token.value with
  | some value => exact .pure value
  | none => exact .failAt token _

/-- Operations. -/
theorem apply_keeps (operator : Token) (left right : Binary64) :
    Keeps lists (apply operator left right) := by
  unfold apply
  cases operator.kind with
  | plus | minus | times => exact .pure _
  | _ => exact .ite (.failAt operator _) (.pure _)

/-- Operands, where their expressions keep the depth. -/
theorem operand_keeps {read : Nat → Program Binary64}
    (inner : ∀ power, Keeps lists (read power)) :
    Keeps lists (operand read) := by
  refine Keeps.current.bind fun t => ?_
  cases t.kind with
  | number => exact Keeps.advance.bind fun _ => literal_keeps t
  | minus => exact Keeps.advance.bind fun _ => (inner _).bind fun _ => .pure _
  | parenOpen =>
    exact Keeps.advance.bind fun _ => (inner _).bind fun _ => (Keeps.expect _).bind fun _ =>
      .pure _
  | _ => exact .failAt t _

/-- The turns of the loop over operators, where their right sides keep the depth. -/
theorem operators_keeps {read : Nat → Program Binary64}
    (inner : ∀ power, Keeps lists (read power)) (power turns : Nat)
    (left : Binary64) : Keeps lists (operators read power turns left) := by
  induction turns generalizing left with
  | zero => exact .never
  | succ turns inductionHypothesis =>
    have turned (start stop : Nat) : Keeps lists (mark (.turned .operators start stop)) :=
      .mark fun _ => trivial
    refine Keeps.current.bind fun operator => (Keeps.peek 1).bind fun _ => .ite ?_ (.pure left)
    refine Keeps.position.bind fun start => Keeps.advance.bind fun _ =>
      (inner _).bind fun right => ?_
    refine (apply_keeps operator left right).bind fun value =>
      Keeps.position.bind fun stop => ?_
    exact (turned start stop).bind fun _ => inductionHypothesis value

/-- Expressions. None of them begins an entry of a list. -/
theorem expressionWithin_keeps (calls power : Nat) :
    Keeps lists (expressionWithin calls power) := by
  induction calls generalizing lists power with
  | zero => exact .never
  | succ calls inductionHypothesis =>
    refine .nested ((operand_keeps inductionHypothesis).bind fun left =>
      Keeps.patience.bind fun turns => ?_)
    exact operators_keeps inductionHypothesis power turns left

/-- Expressions, however deep they are. -/
theorem expression_keeps (power : Nat) : Keeps lists (expression power) :=
  Keeps.patience.bind fun calls => expressionWithin_keeps calls power

/-- Numbers. -/
theorem number_keeps : Keeps lists number :=
  Keeps.current.bind fun t => (expression_keeps 0).bind fun value =>
    .ite (.pure value) (.failAt t _)

/-- Counts. -/
theorem count_keeps : Keeps lists count := by
  refine Keeps.current.bind fun t => number_keeps.bind fun value => ?_
  cases value.toInt? with
  | none => exact .failAt t _
  | some n => exact .ite (.failAt t _) (.pure n)

/-- Circumstances. -/
theorem context_keeps : Keeps lists context := by
  refine Keeps.current.bind fun t => .ite (Keeps.advance.bind fun _ => .pure _) ?_
  refine (Keeps.peek 1).bind fun _ => .ite ?_ (.failAt t _)
  refine Keeps.advance.bind fun _ => Keeps.advance.bind fun _ => string_keeps.bind fun _ => ?_
  exact .ite (.pure _) (.ite (.pure _) (.ite (.pure _) (.ite (.pure _) (.failAt t _))))

/-- Modifiers. -/
theorem modifier_keeps : Keeps lists modifier := by
  have decays : Keeps lists decay :=
    .parenthesized (number_keeps.bind fun _ => (Keeps.expect _).bind fun _ =>
      timeUnit_keeps.bind fun _ => .pure _)
  have amplifies : Keeps lists amplification :=
    .parenthesized ((name_keeps _).bind fun _ => (Keeps.expect _).bind fun _ =>
      number_keeps.bind fun _ => .pure _)
  have transforms : Keeps lists transformation :=
    .parenthesized ((name_keeps _).bind fun _ => (Keeps.expect _).bind fun _ =>
      number_keeps.bind fun _ =>
      (Keeps.expect _).bind fun _ => count_keeps.bind fun _ => .pure _)
  have circumstance : Keeps lists (parenthesized context) := .parenthesized context_keeps
  refine Keeps.current.bind fun t => .ite ?when (.ite ?word (.failAt t _))
  case when => exact Keeps.advance.bind fun _ => circumstance.bind fun _ => .pure _
  case word =>
    refine .ite (Keeps.advance.bind fun _ => decays)
      (.ite ?exception (.ite (Keeps.advance.bind fun _ => amplifies)
      (.ite (Keeps.advance.bind fun _ => transforms) (.failAt t _))))
    exact Keeps.advance.bind fun _ => circumstance.bind fun _ => .pure _

/-- The turns of the loop over modifiers. -/
theorem modifiersFrom_keeps (turns : Nat) : Keeps lists (modifiersFrom turns) := by
  induction turns with
  | zero => exact .never
  | succ turns inductionHypothesis =>
    have turned (start stop : Nat) : Keeps lists (mark (.turned .modifiers start stop)) :=
      .mark fun _ => trivial
    refine Keeps.position.bind fun start => modifier_keeps.bind fun first =>
      (Keeps.check _).bind fun _ => .ite ?more ?last
    case more =>
      refine Keeps.advance.bind fun _ => Keeps.position.bind fun stop =>
        (turned start stop).bind fun _ => ?_
      exact inductionHypothesis.bind fun _ => .pure _
    case last =>
      exact Keeps.position.bind fun stop => (turned start stop).bind fun _ => .pure _

/-- Lists of modifiers. -/
theorem modifiers_keeps : Keeps lists modifiers := Keeps.patience.bind fun turns =>
    modifiersFrom_keeps turns

/-- Traits. -/
theorem trait_keeps : Keeps lists trait := by
  refine (name_keeps _).bind fun _ => (Keeps.expect _).bind fun _ => number_keeps.bind fun _ =>
    (Keeps.check _).bind fun _ => .ite ?_ (.pure _)
  exact Keeps.advance.bind fun _ => modifiers_keeps.bind fun _ => .pure _

/-- Connections. -/
theorem connection_keeps (source : Text) : Keeps lists (connection source) := by
  refine Keeps.advance.bind fun _ => (name_keeps _).bind fun _ =>
    (Keeps.expect _).bind fun _ =>
    number_keeps.bind fun _ => ?_
  refine ((Keeps.check _).bind fun _ => .ite ?_ (.pure _)).bind fun _ =>
    (Keeps.expect _).bind fun _ => .pure _
  exact Keeps.advance.bind fun _ => number_keeps.bind fun _ => .pure _

/-- Entries of a domain. -/
theorem domainEntry_keeps (owner : Text) : Keeps lists (domainEntry owner) := by
  refine Keeps.current.bind fun t => .ite (connection_keeps owner) ?_
  refine (name_keeps _).bind fun called => Keeps.current.bind fun _ => .ite ?_
    (.ite (connection_keeps called) (.failAt t _))
  exact Keeps.advance.bind fun _ => level_keeps.bind fun _ => .pure _

/-- Domains. -/
theorem domain_keeps : Keeps true domain :=
  (Keeps.expect _).bind fun _ => (Keeps.parenthesized (name_keeps _)).bind fun called =>
    (entries_keeps _ false (domainEntry_keeps called)).bind fun _ => .pure _

/-- Conditions that are words. -/
theorem wordCondition_keeps (token : Token) (call : Bool) :
    Keeps lists (wordCondition token call) := by
  refine .ite ?state (.ite ?context (.ite ?time (.ite ?unknown ?bare)))
  case state =>
    refine Keeps.advance.bind fun _ => .ite ?_ (.pure _)
    exact Keeps.advance.bind fun _ => (Keeps.expect _).bind fun _ => .pure _
  case context =>
    exact Keeps.advance.bind fun _ => (Keeps.parenthesized string_keeps).bind fun _ => .pure _
  case time =>
    exact Keeps.advance.bind fun _ => Keeps.advance.bind fun _ => string_keeps.bind fun _ =>
      (Keeps.expect _).bind fun _ => string_keeps.bind fun _ =>
        (Keeps.expect _).bind fun _ => .pure _
  case unknown =>
    have closing : Keeps lists (do
        let _ ← expect .parenClose
        note (.unknownCondition token)
        return Condition.context token.value) :=
      (Keeps.expect _).bind fun _ => (Keeps.note _).bind fun _ => .pure _
    refine Keeps.advance.bind fun _ => Keeps.advance.bind fun _ =>
      (Keeps.check _).bind fun _ => .ite ?_ closing
    exact Keeps.advance.bind fun _ => closing
  case bare => exact Keeps.advance.bind fun _ => .pure _

/-- Conditions. -/
theorem condition_keeps : Keeps lists condition := by
  refine Keeps.current.bind fun t => (Keeps.peek 1).bind fun _ => .ite ?above
    (.ite (Keeps.advance.bind fun _ => .pure _) (.ite (wordCondition_keeps t _) (.failAt t _)))
  exact (name_keeps _).bind fun _ => Keeps.advance.bind fun _ => number_keeps.bind fun _ =>
    .pure _

/-- Actions. -/
theorem action_keeps : Keeps lists action := by
  have loose : Keeps lists looseString :=
    (Keeps.check _).bind fun _ => .ite (.parenthesized string_keeps) string_keeps
  refine Keeps.current.bind fun t =>
    .ite (.ite ?prefer (.ite ?seek (.ite ?avoid (.ite ?style (.failAt t _)))))
    (.failAt t _)
  case style =>
    exact Keeps.advance.bind fun _ => .parenthesized ((name_keeps _).bind fun _ =>
      (Keeps.expect _).bind fun _ =>
      string_keeps.bind fun _ => .pure _)
  all_goals exact Keeps.advance.bind fun _ => loose.bind fun _ => .pure _

/-- Behavior rules. -/
theorem behavior_keeps : Keeps lists behavior :=
  (Keeps.expect _).bind fun _ => condition_keeps.bind fun _ => (Keeps.expect _).bind fun _ =>
    action_keeps.bind fun _ => .pure _

/-- Triggers. -/
theorem trigger_keeps : Keeps lists trigger := by
  have compares {α : Type} {value : Program α} (keeps : Keeps lists value) :
      Keeps lists (compared value) :=
    (Keeps.check _).bind fun _ => .ite (Keeps.advance.bind fun _ => keeps) keeps.parenthesized
  refine Keeps.current.bind fun t =>
    .ite (.ite ?learns (.ite ?time (.ite ?interactions (.ite ?feedback ?unknown))))
    (.failAt t _)
  case learns =>
    exact Keeps.advance.bind fun _ =>
      (Keeps.parenthesized (name_keeps _)).bind fun _ => .pure _
  case time =>
    exact Keeps.advance.bind fun _ => .parenthesized ((name_keeps _).bind fun _ =>
      (Keeps.expect _).bind fun _ =>
      count_keeps.bind fun _ => timeUnit_keeps.bind fun _ => .pure _)
  case interactions =>
    exact Keeps.advance.bind fun _ => (compares count_keeps).bind fun _ => .pure _
  case feedback =>
    exact Keeps.advance.bind fun _ => (compares number_keeps).bind fun _ => .pure _
  case unknown =>
    refine (Keeps.peek 1).bind fun _ => .ite ?_ (.failAt t _)
    exact Keeps.advance.bind fun _ => (Keeps.parenthesized number_keeps).bind fun _ =>
      (Keeps.note _).bind fun _ => .pure _

/-- Effects. An adopted behavior is one level deeper. -/
theorem effect_keeps : Keeps lists effect := by
  have adjusts : Keeps lists adjustment :=
    (name_keeps _).bind fun _ => Keeps.advance.bind fun _ => number_keeps.bind fun _ => .pure _
  have points : Keeps lists arrowEffect :=
    (name_keeps _).bind fun _ => Keeps.advance.bind fun _ => (name_keeps _).bind fun _ =>
      (Keeps.parenthesized number_keeps).bind fun _ => .pure _
  have closing (rule : BehaviorRule) : Keeps false (do
      let _ ← expect .braceClose
      return Effect.adopt rule) := (Keeps.expect _).bind fun _ => .pure _
  have adopts : Keeps lists adoption :=
    .nested ((Keeps.expect _).bind fun _ => behavior_keeps.bind fun rule =>
    (Keeps.check _).bind fun _ => .ite (Keeps.advance.bind fun _ => closing rule)
      (closing rule))
  refine Keeps.current.bind fun t => (Keeps.peek 1).bind fun _ => .ite adjusts (.ite points
    (.ite
      (.ite ?unlock (.ite ?connect (.ite (Keeps.advance.bind fun _ => adopts)
        (.failAt t _)))) (.failAt t _)))
  case unlock =>
    exact Keeps.advance.bind fun _ =>
      (Keeps.parenthesized (name_keeps _)).bind fun _ => .pure _
  case connect =>
    exact Keeps.advance.bind fun _ => .parenthesized ((name_keeps _).bind fun _ =>
      (Keeps.expect _).bind fun _ =>
      (name_keeps _).bind fun _ => (Keeps.expect _).bind fun _ => number_keeps.bind fun _ =>
        .pure _)

/-- Evolution rules. -/
theorem evolutionRule_keeps : Keeps lists evolutionRule :=
  (Keeps.expect _).bind fun _ => trigger_keeps.bind fun _ => (Keeps.expect _).bind fun _ =>
    effect_keeps.bind fun _ => .pure _

/-- Bodies of sections. -/
theorem sectionBody_keeps (rank : Nat) (read : Personality) :
    Keeps true (sectionBody rank read) := by
  unfold sectionBody
  split
  · exact (entries_keeps _ _ trait_keeps).bind fun _ => .pure _
  · exact (entries_keeps _ _ domain_keeps).bind fun _ => .pure _
  · exact (entries_keeps _ _ behavior_keeps).bind fun _ => .pure _
  · exact (entries_keeps _ _ evolutionRule_keeps).bind fun _ => .pure _

/-- The turns of the loop over the sections. -/
theorem sectionsFrom_keeps (last : Nat) (read : Personality) :
    Keeps true (sectionsFrom last read) := by
  induction last, read using sectionsFrom.induct with
  | case1 last read inductionHypothesis =>
    have turned (start stop : Nat) : Keeps true (mark (.turned .sections start stop)) :=
      .mark fun _ => trivial
    rw [sectionsFrom]
    refine Keeps.current.bind fun t => .ite (.pure read) ?_
    split
    case isTrue back => exact .failAt t _
    case isFalse further =>
      refine Keeps.position.bind fun start => Keeps.advance.bind fun _ =>
        (sectionBody_keeps _ read).bind fun more => ?_
      exact Keeps.position.bind fun stop => (turned start stop).bind fun _ =>
        inductionHypothesis t further more

/-- Documents. -/
theorem document_keeps : Keeps true document := by
  refine Keeps.current.bind fun t => .ite (.failAt t _) ?_
  refine (Keeps.expect _).bind fun _ => (name_keeps _).bind fun _ =>
    (Keeps.expect _).bind fun _ => ?_
  refine (sectionsFrom_keeps 0 _).bind fun read => ?_
  refine Keeps.current.bind fun t => .ite ?_ (.failAt t _)
  exact Keeps.advance.bind fun _ => Keeps.current.bind fun following =>
    .ite (.pure read) (.failAt following _)

/-- Parts that take all the tokens. -/
theorem whole_keeps {m : Program α} (what : Text) (keeps : Keeps lists m) :
    Keeps lists (whole what m) :=
  keeps.bind fun value => Keeps.current.bind fun t => .ite (.pure value) (.failAt t _)

end Rules

end Program

end Persona.Grammar
