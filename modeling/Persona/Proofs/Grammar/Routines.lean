import Persona.Proofs.Grammar.Performance
import Persona.Proofs.Grammar.Recognition

/-!
# Every routine performs as its parser reads

One theorem for each function of the grammar: it performs as the parser of the same name
reads. An expression may hold expressions, and each of them stands behind the token that
opens it. An arrow, an operator, a comma or the keyword of a section is passed before a
loop goes on. So there are never more turns, and never more calls inside one another, than
tokens are left. The sections have a rank that goes up, while the parsers look for
one section after the other. At a keyword that comes too early both find the same error.

The routines are the functions that are called from outside or by one another. Whatever is
shown for all of them is shown by one case for each.
-/

namespace Persona.Grammar

open Grammar.Parser

variable {α β : Type} {s : Scanned} {depth : Nat}

/-- Literals. -/
theorem literal_performs {token : Token} (seen : token ∈ s.tape.tokens) :
    Performs s depth (Program.literal token) (literal token) := by
  unfold Program.literal literal
  cases Binary64.read? token.value with
  | some value => exact .pure value
  | none => exact .failAt seen

/-- Operations. -/
theorem apply_performs {operator : Token} (seen : operator ∈ s.tape.tokens)
    (left right : Binary64) :
    Performs s depth (Program.apply operator left right) (apply operator left right) := by
  unfold Program.apply apply
  cases operator.kind with
  | plus | minus | times => exact .pure _
  | _ => exact .ite (.failAt seen) (.pure _)

section Inner

variable {fuel bound : Nat} {read : Nat → Program Binary64} {cursor : Cursor}
  (inner : ∀ {depth power cursor}, s.Holds depth cursor →
    s.tokens.length - cursor.position < bound →
    PerformsAt s depth (read power) (expressionWithin fuel power) cursor)

include inner

/-- Operands, where the expressions in them are performed. -/
theorem operand_performsAt (holds : s.Holds depth cursor)
    (within : s.tokens.length - cursor.position ≤ bound) :
    PerformsAt s depth (Program.operand read) (operand (expressionWithin fuel)) cursor := by
  refine .look ?_
  -- An expression inside stands behind the token that opens it, so fewer tokens are left
  -- to it.
  have fewer {after : Cursor} (notEnd : (s.token cursor.position).kind ≠ .endOfInput)
      (moved : cursor.position < after.position) :
        s.tokens.length - after.position < bound := by
    have before := s.before_end notEnd
    omega
  cases kind : (s.token cursor.position).kind with
  | number =>
    exact (Performs.advance.bind fun _ => literal_performs (s.token_mem _)) cursor holds
  | minus =>
    have notEnd : (s.token cursor.position).kind ≠ .endOfInput := by simp [kind]
    refine .take holds notEnd fun after there moved => ?_
    exact .bind (inner there (fewer notEnd moved)) fun value _ ran => .pure _ ran.holds
  | parenOpen =>
    have notEnd : (s.token cursor.position).kind ≠ .endOfInput := by simp [kind]
    refine .take holds notEnd fun after there moved =>
      .bind (inner there (fewer notEnd moved)) fun value closed ran => ?_
    exact ((Performs.expect .parenClose).bind fun _ => .pure value) closed ran.holds
  | _ => exact .failAt _ (s.token_mem _) holds

/-- The turns of the loop over operators, where their right sides are performed. -/
theorem operators_performsAt (power steps turns : Nat) (left : Binary64)
    (holds : s.Holds depth cursor) (within : s.tokens.length - cursor.position ≤ bound)
    (enough : s.tokens.length - cursor.position ≤ steps)
    (patient : s.tokens.length - cursor.position < turns) :
    PerformsAt s depth (Program.operators read power turns left)
      (operators (expressionWithin fuel) power steps left)
      cursor := by
  induction steps generalizing turns left cursor with
  | zero =>
    obtain ⟨turns, rfl⟩ := Nat.exists_eq_add_one_of_ne_zero (Nat.ne_zero_of_lt patient)
    have isEnd : (s.token cursor.position).kind = .endOfInput := by
      by_contra notEnd
      have before := s.before_end notEnd
      omega
    have binds : bindingPower (s.token cursor.position).kind = 0 := by rw [isEnd]; rfl
    refine .still ?_ holds rfl
    rw [Program.operators]
    simp only [Program.current, Program.bind_eq, PerformsAt.peek_eq, Option.bind_some,
      Nat.add_zero, binds, Nat.not_lt_zero, decide_false, Bool.false_and]
    rfl
  | succ steps inductionHypothesis =>
    obtain ⟨turns, rfl⟩ := Nat.exists_eq_add_one_of_ne_zero (Nat.ne_zero_of_lt patient)
    rw [Program.operators, operators]
    refine .look (.lookAhead ?_)
    split
    case isFalse => exact .pure left holds
    case isTrue binds =>
      have notEnd : (s.token cursor.position).kind ≠ .endOfInput := by
        intro isEnd
        simp [isEnd, bindingPower] at binds
      have before := s.before_end notEnd
      refine .position (.take holds notEnd fun right there moved => ?_)
      refine .bind (inner there (by omega)) fun value operated ranRight => ?_
      refine .bind (apply_performs (s.token_mem _) left value operated ranRight.holds)
        fun result after ranApply => ?_
      have further : cursor.position < after.position :=
        moved.trans_le (ranRight.forward.trans ranApply.forward)
      refine .position (.mark rfl ⟨further, ranApply.holds.inside⟩ ?_)
      exact inductionHypothesis turns result ⟨ranApply.holds.inside, ranApply.holds.depth⟩
        (by dsimp only; omega)
        (by dsimp only; omega) (by dsimp only; omega)

end Inner

/-- Expressions, where more calls are waited for than tokens are left. -/
theorem expression_performsAt (fuel calls : Nat) {power : Nat} {cursor : Cursor}
    (holds : s.Holds depth cursor) (enough : s.tokens.length - cursor.position < fuel)
    (patient : s.tokens.length - cursor.position < calls) :
    PerformsAt s depth (Program.expressionWithin calls power) (expressionWithin fuel power)
      cursor := by
  induction fuel generalizing calls depth power cursor with
  | zero => exact absurd enough (Nat.not_lt_zero _)
  | succ fuel inductionHypothesis =>
    obtain ⟨calls, rfl⟩ := Nat.exists_eq_add_one_of_ne_zero (Nat.ne_zero_of_lt patient)
    have inner {depth power : Nat} {after : Cursor} (holdsAfter : s.Holds depth after)
        (fewer : s.tokens.length - after.position < s.tokens.length - cursor.position) :
        PerformsAt s depth (Program.expressionWithin calls power)
          (expressionWithin fuel power) after :=
      inductionHypothesis calls holdsAfter (by omega) (by omega)
    rw [Program.expressionWithin, expressionWithin]
    refine .nested holds
      (.bind (operand_performsAt inner ⟨holds.inside, by simp [holds.depth]⟩ le_rfl)
      fun left after ran => .patience ?_)
    have forward : cursor.position ≤ after.position := ran.forward
    exact operators_performsAt inner power fuel s.patience left ran.holds (by omega)
      (by omega) (s.patient_left _)

/-- Expressions. -/
theorem expression_performs (power : Nat) : Performs s depth (Program.expression power)
    fun setting tokens => expressionWithin (tokens.length + 1) power setting tokens := by
  intro cursor holds
  have performs : PerformsAt s depth (Program.expressionWithin s.patience power)
      (expressionWithin (s.tokens.length - cursor.position + 1) power) cursor :=
    expression_performsAt _ _ holds (Nat.lt_succ_self _) (s.patient_left cursor.position)
  rw [← List.length_drop] at performs
  exact .patience performs

/-- Operands. -/
theorem operand_performs : Performs s depth (Program.operand Program.expression)
    fun setting tokens => operand (expressionWithin (tokens.length + 1)) setting tokens := by
  intro cursor holds
  have inner {depth power : Nat} {after : Cursor} (holdsAfter : s.Holds depth after)
      (fewer : s.tokens.length - after.position < s.tokens.length - cursor.position + 1) :
      PerformsAt s depth (Program.expression power)
        (expressionWithin (s.tokens.length - cursor.position + 1) power)
        after :=
    .patience (expression_performsAt _ s.patience holdsAfter fewer
      (s.patient_left after.position))
  have performs : PerformsAt s depth (Program.operand Program.expression)
      (operand (expressionWithin (s.tokens.length - cursor.position + 1))) cursor :=
    operand_performsAt inner holds (Nat.le_succ _)
  rw [← List.length_drop] at performs
  exact performs

/-- Numbers. -/
theorem number_performs : Performs s depth Program.number number :=
  .look fun _ seen => Performs.bind (expression_performs 0) fun value =>
    .ite (.pure value) (.failAt seen)

/-- Counts. -/
theorem count_performs : Performs s depth Program.count count := by
  refine .look fun t seen => number_performs.bind fun value => ?_
  cases value.toInt? with
  | none => exact .failAt seen
  | some n => exact .ite (.failAt seen) (.pure n)

/-- Names. -/
theorem name_performs (role : Text) : Performs s depth (Program.name role) (name role) :=
  .look fun _ seen => .ite (Performs.advance.bind fun _ => .pure _) (.failAt seen)

/-- Strings. -/
theorem string_performs : Performs s depth Program.string string :=
  (Performs.expect _).bind fun _ => .pure _

/-- Units of time. -/
theorem timeUnit_performs : Performs s depth Program.timeUnit timeUnit := by
  refine .look fun t seen => ?_
  cases if t.kind = .name then TimeUnit.ofWord? t.value else none with
  | some unit => exact Performs.advance.bind fun _ => .pure unit
  | none => exact .failAt seen

/-- Levels. -/
theorem level_performs : Performs s depth Program.level level := by
  refine .look fun t seen => ?_
  cases if t.kind = .name || t.kind = .string then Level.ofWord? t.value else none with
  | some level => exact Performs.advance.bind fun _ => .pure level
  | none => exact .failAt seen

/-- Circumstances. -/
theorem context_performs : Performs s depth Program.context context := by
  refine .look fun t seen => .ite (Performs.advance.bind fun _ => .pure _)
    (.lookAhead fun _ _ => .ite ?_ (.failAt seen))
  refine Performs.advance.bind fun _ => Performs.advance.bind fun _ =>
    string_performs.bind fun _ => ?_
  exact .ite (.pure _) (.ite (.pure _) (.ite (.pure _) (.ite (.pure _) (.failAt seen))))

/-- Modifiers. -/
theorem modifier_performs : Performs s depth Program.modifier modifier := by
  have decays : Performs s depth Program.decay decay :=
    .parenthesized (number_performs.bind fun _ => (Performs.expect _).bind fun _ =>
      timeUnit_performs.bind fun _ => .pure _)
  have amplifies : Performs s depth Program.amplification amplification :=
    .parenthesized ((name_performs _).bind fun _ => (Performs.expect _).bind fun _ =>
      number_performs.bind fun _ => .pure _)
  have transforms : Performs s depth Program.transformation transformation :=
    .parenthesized ((name_performs _).bind fun _ => (Performs.expect _).bind fun _ =>
      number_performs.bind fun _ =>
      (Performs.expect _).bind fun _ => count_performs.bind fun _ => .pure _)
  have circumstance : Performs s depth (Program.parenthesized Program.context)
      (parenthesized context) :=
    .parenthesized context_performs
  refine .look fun t seen => .ite ?when (.ite ?word (.failAt seen))
  case when => exact Performs.advance.bind fun _ => circumstance.bind fun _ => .pure _
  case word =>
    refine .ite (Performs.advance.bind fun _ => decays)
      (.ite ?exception (.ite (Performs.advance.bind fun _ => amplifies)
      (.ite (Performs.advance.bind fun _ => transforms) (.failAt seen))))
    exact Performs.advance.bind fun _ => circumstance.bind fun _ => .pure _

/-- A modifier takes a token. -/
theorem modifier_advances : Advances modifier := fun setting tokens =>
  .ofTakes (modifier_derives setting tokens) fun _ used _ _ _ _ phrase => by
    rintro rfl
    cases phrase

/-- The turns of the loop over modifiers, where more turns are waited for than
tokens are left. -/
theorem modifiersFrom_performs (fuel turns : Nat) {cursor : Cursor}
    (holds : s.Holds depth cursor) (enough : s.tokens.length - cursor.position < fuel)
    (patient : s.tokens.length - cursor.position < turns) :
    PerformsAt s depth (Program.modifiersFrom turns) (modifiersWithin fuel) cursor := by
  induction fuel generalizing turns cursor with
  | zero => exact absurd enough (Nat.not_lt_zero _)
  | succ fuel inductionHypothesis =>
    obtain ⟨turns, rfl⟩ := Nat.exists_eq_add_one_of_ne_zero (Nat.ne_zero_of_lt patient)
    rw [Program.modifiersFrom, modifiersWithin]
    refine .position (.bind (modifier_performs cursor holds) fun first after ran => ?_)
    have further : cursor.position < after.position := ran.advances modifier_advances
    refine .bind (Performs.check .comma after ran.holds) fun more looked ranLook => ?_
    have looksBehind : cursor.position < looked.position := further.trans_le ranLook.forward
    split
    case isTrue =>
      refine .bind (.advance ranLook.holds) fun _ next ranNext => ?_
      have behind : cursor.position < next.position := looksBehind.trans_le ranNext.forward
      have inside : next.position < s.tokens.length + 1 := s.size_eq ▸ ranNext.holds.inside
      refine .position (.mark rfl ⟨behind, ranNext.holds.inside⟩ (.bind ?_ fun _ _ ran =>
        .pure _ ran.holds))
      exact inductionHypothesis turns ⟨ranNext.holds.inside, ranNext.holds.depth⟩
        (by dsimp only; omega)
        (by dsimp only; omega)
    case isFalse =>
      refine .position (.mark rfl ⟨looksBehind, ranLook.holds.inside⟩ ?_)
      exact .pure _ ⟨ranLook.holds.inside, ranLook.holds.depth⟩

/-- Lists of modifiers. -/
theorem modifiers_performs : Performs s depth Program.modifiers modifiers := by
  intro cursor holds
  have performs : PerformsAt s depth (Program.modifiersFrom s.patience)
      (modifiersWithin (s.tokens.length - cursor.position + 1)) cursor :=
    modifiersFrom_performs _ _ holds (Nat.lt_succ_self _) (s.patient_left cursor.position)
  rw [← List.length_drop] at performs
  exact .patience performs

/-- Traits. -/
theorem trait_performs : Performs s depth Program.trait trait := by
  refine (name_performs _).bind fun _ => (Performs.expect _).bind fun _ =>
    number_performs.bind fun _ =>
    (Performs.check _).bind fun _ => .ite ?_ (.pure _)
  exact Performs.advance.bind fun _ => Performs.bind modifiers_performs fun _ => .pure _

/-- Connections. -/
theorem connection_performs (source : Text) :
    Performs s depth (Program.connection source) (connection source) := by
  refine Performs.advance.bind fun _ => (name_performs _).bind fun _ =>
    (Performs.expect _).bind fun _ =>
    number_performs.bind fun _ => ?_
  refine ((Performs.check _).bind fun _ => .ite ?_ (.pure _)).bind fun _ =>
    (Performs.expect _).bind fun _ => .pure _
  exact Performs.advance.bind fun _ => number_performs.bind fun _ => .pure _

/-- Entries of a domain. -/
theorem domainEntry_performs (owner : Text) :
    Performs s depth (Program.domainEntry owner) (domainEntry owner) := by
  refine .look fun t seen => .ite (connection_performs owner) ?_
  refine (name_performs _).bind fun called => .look fun _ _ =>
    .ite ?_ (.ite (connection_performs called) (.failAt seen))
  exact Performs.advance.bind fun _ => level_performs.bind fun _ => .pure _

/-- Entries that are separated by semicolons take a token. -/
theorem SeparatedList.advances {list : Text} {entry : Parser α}
    (listed : SeparatedList list entry) : Advances entry :=
  fun setting tokens => .ofTakes (listed.takesEnclosed setting tokens)
    fun _ _ _ _ _ _ enclosed => enclosed.1

/-- Domains. -/
theorem domain_performs : Performs s depth Program.domain domain :=
  (Performs.expect _).bind fun _ => (Performs.parenthesized (name_performs _)).bind
    fun called =>
    (entries_performs (domainEntry_performs called)
      (SeparatedList.domain called).advances).bind fun _ => .pure _

/-- Conditions that are words. -/
theorem wordCondition_performs {token : Token} (seen : token ∈ s.tape.tokens) (call : Bool) :
    Performs s depth (Program.wordCondition token call) (wordCondition token call) := by
  refine .ite ?state (.ite ?context (.ite ?time (.ite ?unknown ?bare)))
  case state =>
    refine Performs.advance.bind fun _ => .ite ?_ (.pure _)
    exact Performs.advance.bind fun _ => (Performs.expect _).bind fun _ => .pure _
  case context =>
    exact Performs.advance.bind fun _ =>
      (Performs.parenthesized string_performs).bind fun _ => .pure _
  case time =>
    exact Performs.advance.bind fun _ => Performs.advance.bind fun _ =>
      string_performs.bind fun _ =>
      (Performs.expect _).bind fun _ => string_performs.bind fun _ =>
        (Performs.expect _).bind fun _ => .pure _
  case unknown =>
    have noted : s.Concerns (.unknownCondition token) := seen
    have closing : Performs s depth
        (do
          let _ ← Program.expect .parenClose
          Program.note (.unknownCondition token)
          return Condition.context token.value)
        (do
          let _ ← expect .parenClose
          note (.unknownCondition token)
          return Condition.context token.value) :=
      (Performs.expect _).bind fun _ => (Performs.note noted).bind fun _ => .pure _
    refine Performs.advance.bind fun _ => Performs.advance.bind fun _ =>
      (Performs.check _).bind fun _ => .ite ?_ closing
    exact Performs.advance.bind fun _ => closing
  case bare => exact Performs.advance.bind fun _ => .pure _

/-- Conditions. -/
theorem condition_performs : Performs s depth Program.condition condition := by
  refine .look fun t seen => .lookAhead fun _ _ => .ite ?above
    (.ite (Performs.advance.bind fun _ => .pure _)
      (.ite (wordCondition_performs seen _) (.failAt seen)))
  exact (name_performs _).bind fun _ => Performs.advance.bind fun _ =>
    number_performs.bind fun _ => .pure _

/-- Actions. -/
theorem action_performs : Performs s depth Program.action action := by
  have loose : Performs s depth Program.looseString looseString :=
    (Performs.check _).bind fun _ => .ite (.parenthesized string_performs) string_performs
  refine .look fun t seen =>
    .ite (.ite ?prefer (.ite ?seek (.ite ?avoid (.ite ?style (.failAt seen))))) (.failAt seen)
  case style =>
    exact Performs.advance.bind fun _ => .parenthesized ((name_performs _).bind fun _ =>
      (Performs.expect _).bind fun _ =>
      string_performs.bind fun _ => .pure _)
  all_goals exact Performs.advance.bind fun _ => loose.bind fun _ => .pure _

/-- Behavior rules. -/
theorem behavior_performs : Performs s depth Program.behavior behavior :=
  (Performs.expect _).bind fun _ => condition_performs.bind fun _ =>
    (Performs.expect _).bind fun _ =>
    action_performs.bind fun _ => .pure _

/-- Triggers. -/
theorem trigger_performs : Performs s depth Program.trigger trigger := by
  have compares {α : Type} {m : Program α} {p : Parser α} (inner : Performs s depth m p) :
      Performs s depth (Program.compared m) (compared p) :=
    (Performs.check _).bind fun _ => .ite (Performs.advance.bind fun _ =>
      inner) inner.parenthesized
  refine .look fun t seen =>
    .ite (.ite ?learns (.ite ?time (.ite ?interactions (.ite ?feedback ?unknown))))
    (.failAt seen)
  case learns =>
    exact Performs.advance.bind fun _ =>
      (Performs.parenthesized (name_performs _)).bind fun _ => .pure _
  case time =>
    exact Performs.advance.bind fun _ => .parenthesized ((name_performs _).bind fun _ =>
      (Performs.expect _).bind fun _ =>
      count_performs.bind fun _ => timeUnit_performs.bind fun _ => .pure _)
  case interactions =>
    exact Performs.advance.bind fun _ => (compares count_performs).bind fun _ => .pure _
  case feedback =>
    exact Performs.advance.bind fun _ => (compares number_performs).bind fun _ => .pure _
  case unknown =>
    have noted : s.Concerns (.unknownTrigger t) := seen
    refine .lookAhead fun _ _ => .ite ?_ (.failAt seen)
    exact Performs.advance.bind fun _ => (Performs.parenthesized number_performs).bind fun _ =>
      (Performs.note noted).bind fun _ => .pure _

/-- Effects. An adopted behavior is one level deeper. -/
theorem effect_performs : Performs s depth Program.effect effect := by
  have adjusts : Performs s depth Program.adjustment adjustment :=
    (name_performs _).bind fun _ => Performs.advance.bind fun _ =>
      number_performs.bind fun _ => .pure _
  have points : Performs s depth Program.arrowEffect arrowEffect :=
    (name_performs _).bind fun _ => Performs.advance.bind fun _ =>
      (name_performs _).bind fun _ =>
      (Performs.parenthesized number_performs).bind fun _ => .pure _
  have closing (rule : BehaviorRule) : Performs s (depth + 1)
      (do
        let _ ← Program.expect .braceClose
        return Effect.adopt rule)
      (do
        let _ ← expect .braceClose
        return Effect.adopt rule) := (Performs.expect _).bind fun _ => .pure _
  have adopts : Performs s depth Program.adoption adoption :=
    .nested ((Performs.expect _).bind fun _ => behavior_performs.bind fun rule =>
      (Performs.check _).bind fun _ =>
      .ite (Performs.advance.bind fun _ => closing rule) (closing rule))
  refine .look fun t seen => .lookAhead fun _ _ => .ite adjusts (.ite points
    (.ite
      (.ite ?unlock (.ite ?connect (.ite (Performs.advance.bind fun _ => adopts)
        (.failAt seen)))) (.failAt seen)))
  case unlock =>
    exact Performs.advance.bind fun _ =>
      (Performs.parenthesized (name_performs _)).bind fun _ => .pure _
  case connect =>
    exact Performs.advance.bind fun _ => .parenthesized ((name_performs _).bind fun _ =>
      (Performs.expect _).bind fun _ =>
      (name_performs _).bind fun _ => (Performs.expect _).bind fun _ =>
        number_performs.bind fun _ => .pure _)

/-- Evolution rules. -/
theorem evolutionRule_performs : Performs s depth Program.evolutionRule evolutionRule :=
  (Performs.expect _).bind fun _ => trigger_performs.bind fun _ =>
    (Performs.expect _).bind fun _ =>
    effect_performs.bind fun _ => .pure _

/-- A domain takes a token. -/
theorem domain_advances : Advances domain := by
  intro setting tokens
  refine .fixed .domain (by decide) rfl fun _ rest _ _ => ?_
  refine .bind (.ofTakes ((name_derives "domain").inParens setting rest)
    fun _ _ _ _ _ _ _ => trivial) ?_
  rintro _ _ called left - -
  refine .bind (entries_yields (ListPhrase.rules _)
    (domainEntry_derives called).givesEntries setting left) ?_
  intros
  exact .pure (by simp)

section Sections

/-- Three parts one after the other. -/
theorem Parser.bind_bind {γ : Type} (p : Parser α) (f : α → Parser β) (g : β → Parser γ) :
    p >>= f >>= g = p >>= fun value => f value >>= g := by
  funext setting tokens
  cases first : (p setting tokens).outcome with
  | error e =>
    have failed : ((p >>= f) setting tokens).outcome = .error e := by
      rw [Parser.bind_error first]
    rw [Parser.bind_error failed, Parser.bind_error first, Parser.bind_error first]
  | ok answer =>
    obtain ⟨value, left⟩ := answer
    rw [Parser.bind_ok first]
    cases second : (f value setting left).outcome with
    | error e =>
      have failed : ((p >>= f) setting tokens).outcome = .error e := by
        rw [Parser.bind_ok first, second]
      rw [Parser.bind_error failed, Parser.bind_error second, Parser.bind_ok first]
    | ok answer =>
      obtain ⟨value, left⟩ := answer
      have read : ((p >>= f) setting tokens).outcome = .ok (value, left) := by
        rw [Parser.bind_ok first, second]
      rw [Parser.bind_ok read, Parser.bind_ok second, Parser.bind_ok first, List.append_assoc]

/-- The sections are the kinds that have a rank. -/
theorem isSection_iff (kind : Kind) : isSection kind = true ↔
    Program.sectionRank kind ≠ 0 := by
  cases kind <;> decide

variable {kind : Kind} {m : Program (List α)} {p : Parser (List α)}
    {tail : List α → Parser Personality}

/-- After the last section there is only the end of the document. -/
theorem sectionsFrom_performs_last (read : Personality) :
    Performs s depth (Program.sectionsFrom 4 read >>= Program.ending)
      (documentEnd >>= fun _ => Pure.pure read) := by
  intro cursor holds
  rw [Program.sectionsFrom, documentEnd, bind_assoc, Parser.bind_bind]
  refine .look ?_
  dsimp only
  by_cases isNone : Program.sectionRank (s.token cursor.position).kind = 0
  · have noSection : ¬ isSection (s.token cursor.position).kind = true := by
      rw [isSection_iff]; simpa using isNone
    rw [if_pos isNone, if_neg noSection, pure_bind]
    refine .programLooks ?_
    rw [Nat.add_zero]
    by_cases isClose : (s.token cursor.position).kind = .braceClose
    · rw [if_pos isClose, if_pos isClose, Parser.bind_bind]
      refine (Performs.advance.bind fun _ => ?_) cursor holds
      rw [Parser.bind_bind]
      refine .look fun following seen => ?_
      split
      · exact .pure read
      · exact .failAt seen
    · rw [if_neg isClose, if_neg isClose]
      exact .failAt _ (s.token_mem _) holds
  · rw [if_neg isNone, dif_pos (Program.sectionRank_le _),
      if_pos ((isSection_iff _).mpr isNone)]
    exact .failAt _ (s.token_mem _) holds

/-- A section that may be left out, and what follows it. -/
theorem optionalSection_bind (kind : Kind) (p : Parser (List α)) (next : List α → Parser β) :
    optionalSection kind p >>= next = current >>= fun t =>
      if t.kind = kind then advance >>= fun _ => p >>= next else next [] := by
  rw [optionalSection, Parser.check, Parser.bind_bind, Parser.bind_bind]
  congr 1
  funext t
  change (if decide (t.kind = kind) = true then advance >>= fun _ =>
    p else Pure.pure []) >>= next = _
  by_cases there : t.kind = kind
  · rw [if_pos (decide_eq_true there), if_pos there, Parser.bind_bind]
  · rw [if_neg (by simpa using there), if_neg there]
    rfl

/-- One section after those that come before it: it is there, or the loop looks for the
ones that come after it. -/
theorem sectionsFrom_performs (last : Nat) (set : List α → Personality → Personality)
    (ranked : ∀ k, Program.sectionRank k = last + 1 ↔ k = kind)
    (body : ∀ read, Program.sectionBody (last + 1) read = m >>= fun values =>
      Pure.pure (set values read))
    (inner : Performs s depth m p) {read : Personality} (fresh : set [] read = read)
    (after : ∀ values,
      Performs s depth (Program.sectionsFrom (last + 1) (set values read) >>=
      Program.ending) (tail values)) :
    Performs s depth (Program.sectionsFrom last read >>= Program.ending)
    (optionalSection kind p >>= tail) := by
  intro cursor holds
  rw [optionalSection_bind]
  by_cases there : (s.token cursor.position).kind = kind
  · have rank := (ranked _).mpr there
    have notEnd : (s.token cursor.position).kind ≠ .endOfInput := by
      intro isEnd
      rw [isEnd] at rank
      cases rank
    rw [Program.sectionsFrom, bind_assoc]
    refine .look ?_
    dsimp only
    rw [rank, if_neg (Nat.succ_ne_zero last), dif_neg (Nat.not_succ_le_self last),
      if_pos there]
    simp only [bind_assoc, body, pure_bind]
    refine .position (.take holds notEnd fun opened holdsOpened moved => ?_)
    refine .bind (inner opened holdsOpened) fun values closed ran => ?_
    have further : cursor.position < closed.position := moved.trans_le ran.forward
    refine .position (.mark rfl ⟨further, ran.holds.inside⟩ ?_)
    exact after values _ ⟨ran.holds.inside, ran.holds.depth⟩
  · refine .parserLooks ?_
    rw [Nat.add_zero, if_neg there]
    -- The loop does here what it does after the section that is not there.
    have skips : Program.sectionsFrom last read s.tape cursor =
        Program.sectionsFrom (last + 1) read s.tape cursor := by
      have other : Program.sectionRank (s.token cursor.position).kind ≠ last + 1 :=
        fun rank => there ((ranked _).mp rank)
      have sameTest : Program.sectionRank (s.token cursor.position).kind ≤ last ↔
          Program.sectionRank (s.token cursor.position).kind ≤ last + 1 := by omega
      rw [Program.sectionsFrom, Program.sectionsFrom, Program.bind_eq, Program.bind_eq,
        Program.current, PerformsAt.peek_eq]
      simp only [Option.bind_some, Nat.add_zero, sameTest]
    obtain ⟨result, ran, here⟩ := after [] cursor holds
    rw [fresh] at ran
    refine ⟨result, ?_, here⟩
    rw [Program.bind_eq, skips, ← Program.bind_eq]
    exact ran

end Sections

/-- Documents. -/
theorem document_performs : Performs s depth Program.document document := by
  refine .look fun t seen => .ite (.failAt seen) ?_
  refine (Performs.expect _).bind fun _ => (name_performs _).bind fun called =>
    (Performs.expect _).bind fun _ => ?_
  refine sectionsFrom_performs 0 (fun traits read => { read with traits })
    (fun k => by cases k <;> decide)
    (fun _ => rfl) (entries_performs trait_performs SeparatedList.traits.advances) rfl
      fun traits => ?_
  refine sectionsFrom_performs 1 (fun knowledge read => { read with knowledge })
    (fun k => by cases k <;> decide)
    (fun _ => rfl) (entries_performs domain_performs domain_advances) rfl fun knowledge => ?_
  refine sectionsFrom_performs 2 (fun behaviors read => { read with behaviors })
    (fun k => by cases k <;> decide)
    (fun _ => rfl) (entries_performs behavior_performs SeparatedList.behaviors.advances) rfl
      fun behaviors => ?_
  refine sectionsFrom_performs 3 (fun evolution read => { read with evolution })
    (fun k => by cases k <;> decide)
    (fun _ => rfl) (entries_performs evolutionRule_performs
      SeparatedList.evolution.advances) rfl fun evolution => ?_
  exact sectionsFrom_performs_last _

/-- Parts that take all the tokens. -/
theorem whole_performs {m : Program α} {p : Parser α} (what : Text)
    (inner : Performs s depth m p) :
    Performs s depth (Program.whole what m) (whole what p) :=
  inner.bind fun value => .look fun _ seen => .ite (.pure value) (.failAt seen)

/-- The parse functions, each as a program and as the parser that reads the same. -/
inductive Routine : {α : Type} → Program α → Parser α → Prop where
  | expect (kind : Kind) : Routine (Program.expect kind) (expect kind)
  | name (role : Text) : Routine (Program.name role) (name role)
  | string : Routine Program.string string
  | timeUnit : Routine Program.timeUnit timeUnit
  | level : Routine Program.level level
  | expression (power : Nat) : Routine (Program.expression power)
      fun setting tokens => expressionWithin (tokens.length + 1) power setting tokens
  | operand : Routine (Program.operand Program.expression)
      fun setting tokens => operand (expressionWithin (tokens.length + 1)) setting tokens
  | number : Routine Program.number number
  | count : Routine Program.count count
  | context : Routine Program.context context
  | modifier : Routine Program.modifier modifier
  | trait : Routine Program.trait trait
  | domainEntry (owner : Text) : Routine (Program.domainEntry owner) (domainEntry owner)
  | domain : Routine Program.domain domain
  | condition : Routine Program.condition condition
  | action : Routine Program.action action
  | behavior : Routine Program.behavior behavior
  | trigger : Routine Program.trigger trigger
  | effect : Routine Program.effect effect
  | evolutionRule : Routine Program.evolutionRule evolutionRule
  | traits : Routine (Program.entries "traits" false Program.trait)
      (entries "traits" false trait)
  | knowledge : Routine (Program.entries "knowledge" true Program.domain)
      (entries "knowledge" true domain)
  | body (owner : Text) :
      Routine (Program.entries ("domain " ++ owner) false (Program.domainEntry owner))
      (entries ("domain " ++ owner) false (domainEntry owner))
  | behaviors : Routine (Program.entries "behaviors" false Program.behavior)
      (entries "behaviors" false behavior)
  | evolution : Routine (Program.entries "evolution" false Program.evolutionRule)
      (entries "evolution" false evolutionRule)
  | document : Routine Program.document document
  | parenthesized {α : Type} {m : Program α} {p : Parser α} (inner : Routine m p) :
      Routine (Program.parenthesized m) (parenthesized p)
  | whole {α : Type} {m : Program α} {p : Parser α} (what : Text) (inner : Routine m p) :
      Routine (Program.whole what m) (whole what p)

/-- Every routine performs as its parser reads. -/
theorem Routine.performs {m : Program α} {p : Parser α} (routine : Routine m p) :
    Performs s depth m p := by
  induction routine with
  | expect kind => exact .expect kind
  | name role => exact name_performs role
  | string => exact string_performs
  | timeUnit => exact timeUnit_performs
  | level => exact level_performs
  | expression power => exact expression_performs power
  | operand => exact operand_performs
  | number => exact number_performs
  | count => exact count_performs
  | context => exact context_performs
  | modifier => exact modifier_performs
  | trait => exact trait_performs
  | domainEntry owner => exact domainEntry_performs owner
  | domain => exact domain_performs
  | condition => exact condition_performs
  | action => exact action_performs
  | behavior => exact behavior_performs
  | trigger => exact trigger_performs
  | effect => exact effect_performs
  | evolutionRule => exact evolutionRule_performs
  | traits => exact entries_performs trait_performs SeparatedList.traits.advances
  | knowledge => exact entries_performs domain_performs domain_advances
  | body owner =>
    exact entries_performs (domainEntry_performs owner) (SeparatedList.domain owner).advances
  | behaviors => exact entries_performs behavior_performs SeparatedList.behaviors.advances
  | evolution => exact entries_performs evolutionRule_performs SeparatedList.evolution.advances
  | document => exact document_performs
  | parenthesized _ inner => exact inner.parenthesized
  | whole what _ inner => exact whole_performs what inner

/-- Every routine keeps the nesting depth. -/
theorem Routine.keeps {m : Program α} {p : Parser α} (routine : Routine m p) :
    Program.Keeps true m := by
  induction routine with
  | expect kind => exact .expect kind
  | name role => exact Program.name_keeps role
  | string => exact Program.string_keeps
  | timeUnit => exact Program.timeUnit_keeps
  | level => exact Program.level_keeps
  | expression power => exact Program.expression_keeps power
  | operand => exact Program.operand_keeps Program.expression_keeps
  | number => exact Program.number_keeps
  | count => exact Program.count_keeps
  | context => exact Program.context_keeps
  | modifier => exact Program.modifier_keeps
  | trait => exact Program.trait_keeps
  | domainEntry owner => exact Program.domainEntry_keeps owner
  | domain => exact Program.domain_keeps
  | condition => exact Program.condition_keeps
  | action => exact Program.action_keeps
  | behavior => exact Program.behavior_keeps
  | trigger => exact Program.trigger_keeps
  | effect => exact Program.effect_keeps
  | evolutionRule => exact Program.evolutionRule_keeps
  | traits => exact Program.entries_keeps _ _ Program.trait_keeps
  | knowledge => exact Program.entries_keeps _ _ Program.domain_keeps
  | body owner => exact Program.entries_keeps _ _ (Program.domainEntry_keeps owner)
  | behaviors => exact Program.entries_keeps _ _ Program.behavior_keeps
  | evolution => exact Program.entries_keeps _ _ Program.evolutionRule_keeps
  | document => exact Program.document_keeps
  | parenthesized _ inner => exact inner.parenthesized
  | whole what _ inner => exact Program.whole_keeps what inner

end Persona.Grammar
