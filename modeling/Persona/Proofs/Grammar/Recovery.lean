import Persona.Proofs.Grammar.Nesting
import Persona.Proofs.Grammar.Recognition

/-!
# What a list skips

The tokens between the braces of a list fall into segments: they are split at the
semicolons at depth zero, counted as skipping counts. Each segment is judged on its own,
by reading an entry from its first token on: it is good if the entry ends where the
segment does. A list gives the values of its good segments and one notice for every other
segment but the last; it fails exactly when the last segment is not empty and not good.

Proof: An entry that is read takes a phrase, which is balanced, so it cannot reach the end
of its segment and go on: the semicolon or brace there is at depth zero. If it ends
earlier, what follows it is neither a semicolon nor a brace, and the entry is refused.
Skipping starts over at the first token of the segment, so however far the entry came,
it ends behind the semicolon of the segment.
-/

namespace Persona.Grammar

open Grammar.Parser
open Spelling (fixed word quoted call)

/-- Skipping by one token: pass it, find the semicolon there, or meet the end
of the list. -/
theorem afterSeparator?_cons (depth : Nat) (t : Token) (rest : List Token) :
    afterSeparator? depth (t :: rest) =
      match pass depth t.kind with
      | some d => afterSeparator? d rest
      | none => if t.kind = .semicolon then some rest else none := by
  rw [afterSeparator?]
  cases kind : t.kind <;> simp only [pass, deepen] <;> split <;> simp_all

/-- Skipping goes on behind tokens that are passed. -/
theorem afterSeparator?_append {depth d : Nat} {tokens : List Token}
    (passed : passes depth (tokens.map Token.kind) = some d) (rest : List Token) :
    afterSeparator? depth (tokens ++ rest) = afterSeparator? d rest := by
  induction tokens generalizing depth with
  | nil =>
    obtain rfl : depth = d := Option.some.inj passed
    rfl
  | cons t tokens inductionHypothesis =>
    rw [List.map_cons, passes_cons, Option.bind_eq_some_iff] at passed
    obtain ⟨next, here, later⟩ := passed
    rw [List.cons_append, afterSeparator?_cons, here]
    exact inductionHypothesis later

/-- Tokens that are split at semicolons: each segment but the last has one behind it. -/
inductive Segments where
  | last (segment : List Token)
  | closed (segment : List Token) (semicolon : Token) (others : Segments)

namespace Segments

/-- The tokens that were split. -/
def tokens : Segments → List Token
  | .last segment => segment
  | .closed segment semicolon others => segment ++ semicolon :: others.tokens

/-- A token goes in front of the first segment. -/
def push (t : Token) : Segments → Segments
  | .last segment => .last (t :: segment)
  | .closed segment semicolon others => .closed (t :: segment) semicolon others

/-- Split tokens at the semicolons at depth zero, counted from `depth` as
skipping counts. -/
def split (depth : Nat) : List Token → Segments
  | [] => .last []
  | t :: rest =>
    if depth = 0 ∧ t.kind = .semicolon then .closed [] t (split 0 rest)
    else (split ((deepen depth t.kind).getD 0) rest).push t

/-- The last segment. -/
def final : Segments → List Token
  | .last segment => segment
  | .closed _ _ others => others.final

/-- A token in front of the segments is in front of the tokens. -/
@[simp] theorem tokens_push (t : Token) (segments : Segments) :
    (segments.push t).tokens = t :: segments.tokens := by
  cases segments <;> rfl

/-- Splitting loses nothing. -/
@[simp] theorem tokens_split (depth : Nat) (tokens : List Token) :
    (split depth tokens).tokens = tokens := by
  induction tokens generalizing depth with
  | nil => rfl
  | cons t rest inductionHypothesis =>
    rw [split]
    split
    · simp [Segments.tokens, inductionHypothesis]
    · simp [inductionHypothesis]

/-- Skipping passes each segment, from `depth` for the first and from zero for the others,
and stops at the semicolon behind it. -/
def Passed (depth : Nat) : Segments → Prop
  | .last segment => passes depth (segment.map Token.kind) = some 0
  | .closed segment semicolon others =>
    passes depth (segment.map Token.kind) = some 0 ∧ semicolon.kind = .semicolon ∧
      others.Passed 0

/-- A token that is passed may stand in front. -/
theorem Passed.push {depth d : Nat} {t : Token} {segments : Segments}
    (here : pass depth t.kind = some d)
    (passed : segments.Passed d) : (segments.push t).Passed depth := by
  cases segments with
  | last segment => simpa [Segments.push, Passed, here] using passed
  | closed segment semicolon others => simpa [Segments.push, Passed, here] using passed

/-- Tokens whose count comes back to zero and never meets the end of the list are split
into segments that are passed. -/
theorem passed_split {depth : Nat} {tokens : List Token}
    (level : (tokens.map Token.kind).foldlM deepen depth = some 0) :
    (split depth tokens).Passed depth := by
  induction tokens generalizing depth with
  | nil => exact level
  | cons t rest inductionHypothesis =>
    rw [List.map_cons, List.foldlM_cons, Option.bind_eq_bind, Option.bind_eq_some_iff] at level
    obtain ⟨d, here, later⟩ := level
    rw [split]
    split
    · rename_i found
      obtain ⟨rfl, isSemicolon⟩ := found
      rw [isSemicolon] at here
      obtain rfl : 0 = d := Option.some.inj here
      exact ⟨rfl, isSemicolon, inductionHypothesis later⟩
    · rename_i other
      refine Passed.push (d := d) ?_ ?_
      · rw [pass, if_neg other, here]
      · rw [here]
        exact inductionHypothesis later

end Segments

section Verdicts

variable {α : Type}

/-- The verdict on a segment with `rest` behind it: an entry is read from its first token
on, and has to end where the segment does. -/
def verdict (list : Text) (entry : Parser α) (setting : Setting)
    (segment rest : List Token) : Except SyntaxError α :=
  match (entry setting (segment ++ rest)).outcome with
  | .error e => .error e
  | .ok (value, left) =>
    if left = rest then .ok value
    else
      let next := left.head?.getD setting.last
      .error (.atToken next (.expectedSeparator list next))

/-- The verdicts on all segments but the last, with `rest` behind the last. -/
def Segments.verdicts (list : Text) (entry : Parser α) (setting : Setting)
    (rest : List Token) :
    Segments → List (Except SyntaxError α)
  | .last _ => []
  | .closed segment semicolon others =>
    verdict list entry setting segment (semicolon :: (others.tokens ++ rest)) ::
      others.verdicts list entry setting rest

/-- What the last segment adds: nothing when it is empty, else what its verdict says. -/
def closingVerdict (list : Text) (entry : Parser α) (setting : Setting)
    (segment rest : List Token) :
    Except SyntaxError (List α) :=
  if segment = [] then .ok [] else (verdict list entry setting segment rest).map ([·])

/-- The values of the good segments, in order. -/
def goodValues (verdicts : List (Except SyntaxError α)) :
    List α := verdicts.filterMap Except.toOption

/-- Why the other segments are not good, in order. -/
def faults (verdicts : List (Except SyntaxError α)) : List SyntaxError :=
  verdicts.filterMap fun
    | .ok _ => none
    | .error e => some e

/-- The first verdict comes first among the values. -/
theorem goodValues_cons (first : Except SyntaxError α) (others : List (Except SyntaxError α)) :
    goodValues (first :: others) = first.toOption.toList ++ goodValues others := by
  cases first <;> rfl

/-- The first verdict comes first among the faults. -/
theorem faults_cons (first : Except SyntaxError α) (others : List (Except SyntaxError α)) :
    faults (first :: others) = faults [first] ++ faults others := by
  cases first <;> rfl

/-- An entry takes balanced tokens, at least one, and gives no notice. -/
def TakesEnclosed (entry : Parser α) : Prop :=
  Takes entry fun used _ _ => used ≠ [] ∧ passes 0 (used.map Token.kind) = some 0

/-- A parser of phrases that are balanced and start like an entry. -/
theorem Derives.takesEnclosed {entry : Parser α} {phrase : List Spelling → α → Prop}
    (derives : Derives entry phrase) (starts : ∀ {e value}, phrase e value → Starts e)
    (balanced : ∀ {e value}, phrase e value → Balanced e) :
    TakesEnclosed entry := by
  refine Takes.imp derives fun used value left phrased => ⟨?_, ?_⟩
  · rintro rfl
    obtain ⟨s, others, same, -⟩ := starts phrased
    cases same
  · have kinds : used.map Token.kind = (used.map Token.symbol).map Prod.fst := by
      rw [List.map_map]
      rfl
    rw [kinds]
    exact balanced phrased 0

/-- The lists whose entries are separated by semicolons, with the parser of
their entries. -/
inductive SeparatedList : {α : Type} → Text → Parser α → Prop where
  | traits : SeparatedList "traits" trait
  | behaviors : SeparatedList "behaviors" behavior
  | evolution : SeparatedList "evolution" evolutionRule
  | domain (owner : Text) : SeparatedList ("domain " ++ owner) (domainEntry owner)

/-- The entries of these lists take balanced tokens. -/
theorem SeparatedList.takesEnclosed {list : Text} {entry : Parser α}
    (listed : SeparatedList list entry) :
    TakesEnclosed entry := by
  cases listed with
  | traits =>
    exact trait_derives.takesEnclosed trait_acceptsEntries.starts TraitPhrase.balanced
  | behaviors =>
    exact behavior_derives.takesEnclosed behavior_acceptsEntries.starts BehaviorPhrase.balanced
  | evolution =>
    exact evolutionRule_derives.takesEnclosed evolutionRule_acceptsEntries.starts
      EvolutionPhrase.balanced
  | domain owner =>
    exact (domainEntry_derives owner).takesEnclosed
      (domainEntry_acceptsEntries owner).starts DomainEntryPhrase.balanced

/-- Skipping stops at depth zero only at a semicolon or a closing brace. -/
theorem pass_eq_none {kind : Kind} (stops : pass 0 kind = none) :
    kind = .semicolon ∨ kind = .braceClose := by
  cases kind <;> simp_all [pass, deepen]

/-- A silent reading has no notices. -/
theorem filter_silent {events : List Event} (silent : Silent events) :
    events.filter Event.isNotice = [] := by
  simpa [List.filter_eq_nil_iff, Silent] using silent

variable {list : Text} {entry : Parser α} {setting : Setting} {segment rest : List Token}
    {stop : Token}

/-- Where an entry ends that was read from the first token of a segment: at the end
of the segment, or at a token of the segment that neither separates entries nor
closes the list. -/
theorem entry_stops {used left : List Token}
    (level : passes 0 (segment.map Token.kind) = some 0)
    (stops : pass 0 stop.kind = none) (passed : passes 0 (used.map Token.kind) = some 0)
    (split : segment ++ stop :: rest = used ++ left) :
    left = stop :: rest ∨ ∃ t others, left = t :: others ∧ t.kind ≠ .semicolon ∧
    t.kind ≠ .braceClose := by
  rcases List.append_eq_append_iff.mp split with ⟨more, rfl, same⟩ | ⟨more, rfl, rfl⟩
  · cases more with
    | nil => exact .inl same.symm
    | cons t more =>
      -- Then the entry would have passed the end of the segment.
      obtain ⟨rfl, -⟩ := List.cons.inj same
      simp [level, stops] at passed
  · cases more with
    | nil => exact .inl rfl
    | cons t more =>
      refine .inr ⟨t, more ++ stop :: rest, rfl, ?_⟩
      rw [List.map_append, passes_append, passed, Option.bind_some, List.map_cons,
        passes_cons] at level
      constructor <;> intro is <;> simp [is, pass, deepen] at level

/-- What becomes of an entry that was read is decided by the kind of the
token behind it. -/
theorem separated_eq {tokens left : List Token} {t : Token} {value : α}
    (read : (entry setting tokens).outcome = .ok (value, t :: left)) :
    separated list false entry setting tokens = ⟨(entry setting tokens).events,
      if t.kind = .semicolon then .ok (value, left)
      else if t.kind = .braceClose then .ok (value, t :: left)
      else .error (.atToken t (.expectedSeparator list t))⟩ := by
  have here (next : Token → Parser α) :
      (current >>= next) setting (t :: left) = next t setting (t :: left) := rfl
  unfold separated
  rw [Parser.bind_ok read, here]
  by_cases isSemicolon : t.kind = .semicolon
  · rw [if_pos isSemicolon, if_pos isSemicolon]
    exact congrArg (Reply.mk · _) (List.append_nil _)
  · by_cases isClose : t.kind = .braceClose
    · rw [if_neg isSemicolon, if_neg isSemicolon, if_pos isClose, if_pos (by simp [isClose])]
      exact congrArg (Reply.mk · _) (List.append_nil _)
    · rw [if_neg isSemicolon, if_neg isSemicolon, if_neg isClose, if_neg (by simp [isClose])]
      exact congrArg (Reply.mk · _) (List.append_nil _)

/-- An entry with its separator, read from the first token of a segment, does what the
verdict says. -/
theorem separated_verdict (list : Text) (rest : List Token) (takes : TakesEnclosed entry)
    (ends : setting.last.kind = .endOfInput)
    (level : passes 0 (segment.map Token.kind) = some 0) (stops : pass 0 stop.kind = none) :
    Silent (separated list false entry setting (segment ++ stop :: rest)).events ∧
      (separated list false entry setting (segment ++ stop :: rest)).outcome =
        (verdict list entry setting segment (stop :: rest)).map fun value =>
          (value, if stop.kind = .semicolon then rest else stop :: rest) := by
  obtain ⟨silent, taken⟩ := takes setting (segment ++ stop :: rest) ends
  unfold verdict
  cases outcome : (entry setting (segment ++ stop :: rest)).outcome with
  | error e =>
    unfold separated
    rw [Parser.bind_error outcome]
    exact ⟨silent, rfl⟩
  | ok answer =>
    obtain ⟨value, left⟩ := answer
    obtain ⟨used, split, -, passed⟩ := taken value left outcome
    have atStop := pass_eq_none stops
    rcases entry_stops level stops passed split with rfl |
        ⟨t, others, rfl, noSemicolon, noBrace⟩
    · rw [separated_eq outcome]
      refine ⟨silent, ?_⟩
      rcases atStop with is | is <;> simp [is, Except.map]
    · have other : t :: others ≠ stop :: rest := by
        rintro ⟨rfl, -⟩
        exact atStop.elim noSemicolon noBrace
      rw [separated_eq outcome]
      exact ⟨silent, by simp [noSemicolon, noBrace, other, Except.map]⟩

/-- Reading a segment with a semicolon behind it gives the value if it is good, and else
skips it with one notice. -/
theorem recovering_closed (list : Text) (rest : List Token) (takes : TakesEnclosed entry)
    (ends : setting.last.kind = .endOfInput)
    (level : passes 0 (segment.map Token.kind) = some 0)
    (isSemicolon : stop.kind = .semicolon) :
    (recovering list (separated list false entry) setting
      (segment ++ stop :: rest)).events.filter Event.isNotice =
        (faults [verdict list entry setting segment (stop :: rest)]).map (.skipped list) ∧
      (recovering list (separated list false entry) setting
      (segment ++ stop :: rest)).outcome =
        .ok ((verdict list entry setting segment (stop :: rest)).toOption, rest) := by
  have stops : pass 0 stop.kind = none := by simp [isSemicolon, pass]
  obtain ⟨silent, outcome⟩ := separated_verdict list rest takes ends level stops
  have skips : afterSeparator? 0 (segment ++ stop :: rest) = some rest := by
    rw [afterSeparator?_append level, afterSeparator?_cons, stops]
    simp [isSemicolon]
  cases judged : verdict list entry setting segment (stop :: rest) with
  | ok value =>
    rw [judged, if_pos isSemicolon] at outcome
    rw [recovering_read outcome]
    simp [filter_silent silent, faults, Except.toOption]
  | error e =>
    rw [judged] at outcome
    rw [recovering_skipped outcome skips]
    simp [filter_silent silent, faults, Except.toOption, Event.isNotice]

/-- Reading the last segment gives its value if it is good, and else fails. -/
theorem recovering_final (list : Text) (rest : List Token) (takes : TakesEnclosed entry)
    (ends : setting.last.kind = .endOfInput)
    (level : passes 0 (segment.map Token.kind) = some 0) (isClose : stop.kind = .braceClose) :
    Silent (recovering list (separated list false entry) setting
      (segment ++ stop :: rest)).events ∧
      (recovering list (separated list false entry) setting
      (segment ++ stop :: rest)).outcome =
        (verdict list entry setting segment (stop :: rest)).map fun value =>
        (some value, stop :: rest) := by
  have stops : pass 0 stop.kind = none := by simp [isClose, pass, deepen]
  obtain ⟨silent, outcome⟩ := separated_verdict list rest takes ends level stops
  have stuck : afterSeparator? 0 (segment ++ stop :: rest) = none := by
    rw [afterSeparator?_append level, afterSeparator?_cons, stops]
    simp [isClose]
  cases judged : verdict list entry setting segment (stop :: rest) with
  | ok value =>
    rw [judged, if_neg (by simp [isClose])] at outcome
    rw [recovering_read outcome]
    exact ⟨silent, rfl⟩
  | error e =>
    rw [judged] at outcome
    rw [recovering_stuck outcome stuck]
    exact ⟨silent, rfl⟩

/-- The next token neither closes a list nor ends the input. -/
def GoesOnAt (setting : Setting) (tokens : List Token) : Prop :=
  ∃ t, Sees setting tokens t ∧ t.kind ≠ .braceClose ∧ t.kind ≠ .endOfInput

/-- A list that neither closes nor ends here goes on with an entry. -/
theorem entriesWithin_goesOn (fuel : Nat) {tokens : List Token}
    (goesOn : GoesOnAt setting tokens) :
    entriesWithin list false entry (fuel + 1) setting tokens = (do
      let value ← recovering list (separated list false entry)
      let values ← entriesWithin list false entry fuel
      return value.toList ++ values : Parser (List α)) setting tokens := by
  obtain ⟨t, seen, noClose, noEnd⟩ := goesOn
  have here (next : Token → Parser (List α)) :
      (current >>= next) setting tokens = next t setting tokens := by
    have looked : tokens[0]?.getD setting.last = t := by cases tokens <;> exact seen
    subst looked
    rfl
  rw [entriesWithin, here, if_neg noClose, if_neg noEnd]

/-- The turn of a list leaves a list again. -/
theorem entriesWithin_turn (fuel : Nat) {tokens left : List Token} {value : Option α}
    (goesOn : GoesOnAt setting tokens)
    (read : (recovering list (separated list false entry) setting tokens).outcome =
      .ok (value, left)) :
    entriesWithin list false entry (fuel + 1) setting tokens =
      ⟨(recovering list (separated list false entry) setting tokens).events ++
          (entriesWithin list false entry fuel setting left).events,
        (entriesWithin list false entry fuel setting left).outcome.map fun answer =>
          (value.toList ++ answer.1, answer.2)⟩ := by
  rw [entriesWithin_goesOn fuel goesOn, Parser.bind_ok read]
  cases later : (entriesWithin list false entry fuel setting left).outcome with
  | error e =>
    rw [Parser.bind_error later]
    rfl
  | ok answer =>
    obtain ⟨values, rest⟩ := answer
    rw [Parser.bind_ok later]
    exact congrArg (Reply.mk · _) (congrArg _ (List.append_nil _))

/-- The closing brace ends a list without an event. -/
theorem entriesWithin_stop (fuel : Nat) {t : Token} {tokens : List Token}
    (isClose : t.kind = .braceClose) :
    entriesWithin list false entry (fuel + 1) setting (t :: tokens) =
      ⟨[], .ok ([], tokens)⟩ := by
  change (if t.kind = .braceClose then _ else _ : Parser (List α)) setting (t :: tokens) = _
  rw [if_pos isClose]
  rfl

/-- At the first token of a segment that is passed and not empty, a list goes on. -/
theorem goesOnAt_segment {t : Token}
    (level : passes 0 ((t :: segment).map Token.kind) = some 0)
    (inside : t.kind ≠ .endOfInput) : GoesOnAt setting (t :: segment ++ rest) := by
  refine ⟨t, rfl, fun isClose => ?_, inside⟩
  simp [isClose, pass, deepen] at level

/-- A list does what the verdicts on its segments say: one notice for each that is not
good, and of the last one its value or its error. -/
theorem entriesWithin_segments (list : Text) (rest : List Token)
    (takes : TakesEnclosed entry) (ends : setting.last.kind = .endOfInput)
    (isClose : stop.kind = .braceClose) {segments : Segments} (passed : segments.Passed 0)
    (inside : ∀ t ∈ segments.tokens, t.kind ≠ .endOfInput) {fuel : Nat}
    (enough : segments.tokens.length < fuel) :
    (entriesWithin list false entry fuel setting
      (segments.tokens ++ stop :: rest)).events.filter Event.isNotice =
        (faults (segments.verdicts list entry setting (stop :: rest))).map (.skipped list) ∧
      (entriesWithin list false entry fuel setting (segments.tokens ++ stop :: rest)).outcome =
        (closingVerdict list entry setting segments.final (stop :: rest)).map fun values =>
          (goodValues (segments.verdicts list entry setting (stop :: rest)) ++ values,
          rest) := by
  induction segments generalizing fuel with
  | last segment =>
    cases segment with
    | nil =>
      obtain ⟨fuel, rfl⟩ :=
        Nat.exists_eq_add_one_of_ne_zero (Nat.ne_of_gt (Nat.zero_lt_of_lt enough))
      simp [Segments.tokens, Segments.final, Segments.verdicts,
        entriesWithin_stop fuel isClose, closingVerdict, faults, goodValues, Except.map]
    | cons t segment =>
      have level : passes 0 ((t :: segment).map Token.kind) = some 0 := passed
      have goesOn : GoesOnAt setting (t :: segment ++ stop :: rest) :=
        goesOnAt_segment level (inside t List.mem_cons_self)
      obtain ⟨fuel, rfl⟩ : ∃ n, fuel = n + 2 := by
        simp only [Segments.tokens, List.length_cons] at enough
        exact ⟨fuel - 2, by omega⟩
      obtain ⟨silent, outcome⟩ := recovering_final list rest takes ends level isClose
      simp only [Segments.tokens, Segments.final, Segments.verdicts, closingVerdict,
        List.cons_ne_nil, if_false]
      cases judged : verdict list entry setting (t :: segment) (stop :: rest) with
      | error e =>
        rw [judged] at outcome
        rw [entriesWithin_goesOn _ goesOn, Parser.bind_error outcome]
        exact ⟨filter_silent silent, rfl⟩
      | ok value =>
        rw [judged] at outcome
        rw [entriesWithin_turn _ goesOn outcome, entriesWithin_stop fuel isClose]
        exact ⟨by simpa [faults] using filter_silent silent, rfl⟩
  | closed segment semicolon others inductionHypothesis =>
    obtain ⟨level, isSemicolon, passedOthers⟩ := passed
    obtain ⟨fuel, rfl⟩ :=
      Nat.exists_eq_add_one_of_ne_zero (Nat.ne_of_gt (Nat.zero_lt_of_lt enough))
    have less : others.tokens.length < fuel := by
      simp only [Segments.tokens, List.length_append, List.length_cons] at enough
      omega
    -- The turn starts at the first token of the segment, or at its semicolon when it is empty.
    have goesOn : GoesOnAt setting (segment ++ semicolon ::
        (others.tokens ++ stop :: rest)) := by
      cases segment with
      | nil => exact ⟨semicolon, rfl, by simp [isSemicolon], by simp [isSemicolon]⟩
      | cons t segment => exact goesOnAt_segment level (inside t (by simp [Segments.tokens]))
    obtain ⟨notices, outcome⟩ := recovering_closed list (others.tokens ++ stop :: rest)
      takes ends level isSemicolon
    obtain ⟨laterNotices, laterOutcome⟩ := inductionHypothesis passedOthers
      (fun t member => inside t (by simp [Segments.tokens, member])) less
    simp only [Segments.tokens, Segments.final, Segments.verdicts, List.append_assoc,
      List.cons_append]
    rw [entriesWithin_turn _ goesOn outcome]
    constructor
    · rw [List.filter_append, notices, laterNotices, ← List.map_append, ← faults_cons]
    · rw [laterOutcome, goodValues_cons]
      cases closingVerdict list entry setting others.final (stop :: rest) with
      | error e => rfl
      | ok values => simp [Except.map]

/-- Behind its opening brace a list reads its entries, with fuel for every token. -/
theorem entries_opened {opening : Token} (opens : opening.kind = .braceOpen)
    (tokens : List Token) :
    entries list false entry setting (opening :: tokens) =
      entriesWithin list false entry (tokens.length + 1) setting tokens := by
  have opened : expect .braceOpen setting (opening :: tokens) =
      ⟨[], .ok (opening, tokens)⟩ := by
    change (if opening.kind = .braceOpen then _ else _ : Parser Token) setting (opening ::
      tokens) = _
    rw [if_pos opens]
    rfl
  have outcome : (expect .braceOpen setting (opening :: tokens)).outcome =
      .ok (opening, tokens) := by rw [opened]
  refine (Parser.bind_ok outcome _).trans ?_
  rw [opened]
  rfl

/-- A segment without tokens is never good. -/
theorem verdict_empty (takes : TakesEnclosed entry) (ends : setting.last.kind = .endOfInput)
    (list : Text)
    (rest : List Token) : ∃ e, verdict list entry setting [] rest = .error e := by
  unfold verdict
  cases outcome : (entry setting ([] ++ rest)).outcome with
  | error e => exact ⟨e, rfl⟩
  | ok answer =>
    obtain ⟨value, left⟩ := answer
    obtain ⟨used, split, some, -⟩ := (takes setting ([] ++ rest) ends).2 value left outcome
    have shorter : left ≠ rest := by
      rintro rfl
      exact some (List.append_left_eq_self.mp split.symm)
    exact ⟨_, if_neg shorter⟩

end Verdicts

end Persona.Grammar

namespace Persona

/-- Whatever a document is called and however deeply it may nest, a strict reading gives a
personality exactly when a reading that is not strict gives it without a notice. -/
theorem Personality.read_strict_iff_silent (file text : Text) (limit : Int) (p : Personality) :
    (Personality.read ⟨file, true, limit⟩ text).result = .ok p ↔
      (Personality.read ⟨file, false, limit⟩ text).result = .ok p ∧
        (Personality.read ⟨file, false, limit⟩ text).notices = [] := by
  unfold Personality.read
  dsimp only
  cases Token.scan text with
  | error e => simp
  | ok stream =>
    dsimp only
    generalize Grammar.document ⟨stream.last, limit, 0⟩ stream.tokens = reply
    obtain ⟨events, outcome⟩ := reply
    cases outcome with
    | error e => simp
    | ok answer =>
      by_cases quiet : events.filterMap (Event.notice? (Source.ofText file text)) = []
      · simp [quiet]
      · simp [quiet]

namespace Grammar

/-- The tokens between the braces of a list are split at their semicolons at depth zero.
The list gives the values of the segments that are good, in order, and notices that the
others were skipped, in order; an empty segment is not good. It fails exactly when the
last segment has tokens and is not good. A strict reading of a document succeeds exactly
when one that is not strict has no notice to give. -/
theorem entries_recover {α : Type} {list : Text} {entry : Parser α}
    (listed : SeparatedList list entry)
    (setting : Setting) (opening closing : Token) (inner rest : List Token)
    (ends : setting.last.kind = .endOfInput) (opens : opening.kind = .braceOpen)
    (closes : closing.kind = .braceClose) (inside : ∀ t ∈ inner, t.kind ≠ .endOfInput)
    (level : (inner.map Token.kind).foldlM deepen 0 = some 0) :
    let segments := Segments.split 0 inner
    let verdicts := segments.verdicts list entry setting (closing :: rest)
    let reply := entries list false entry setting (opening :: (inner ++ closing :: rest))
    segments.tokens = inner ∧ (∀ after, ∃ e, verdict list entry setting [] after = .error e) ∧
      reply.events.filter Event.isNotice = (faults verdicts).map (.skipped list) ∧
      reply.outcome = (closingVerdict list entry setting segments.final (closing :: rest)).map
        (fun values => (goodValues verdicts ++ values, rest)) ∧
      ∀ (file text : Text) (limit : Int) (p : Personality),
        (Personality.read ⟨file, true, limit⟩ text).result = .ok p ↔
          (Personality.read ⟨file, false, limit⟩ text).result = .ok p ∧
            (Personality.read ⟨file, false, limit⟩ text).notices = [] := by
  have takes := listed.takesEnclosed
  have enough : (Segments.split 0 inner).tokens.length <
      (inner ++ closing :: rest).length + 1 := by
    simp only [Segments.tokens_split, List.length_append]
    omega
  obtain ⟨notices, outcome⟩ := entriesWithin_segments list rest takes ends closes
    (Segments.passed_split level)
    (by simpa using inside) enough
  rw [Segments.tokens_split] at notices outcome
  refine ⟨Segments.tokens_split 0 inner, verdict_empty takes ends list, ?_, ?_,
    Personality.read_strict_iff_silent⟩
  · rw [entries_opened opens, notices]
  · rw [entries_opened opens, outcome]

/-- Tokens between the braces of a list of evolution rules. The first rule fails behind an
unopened parenthesis, the second segment is empty, the third rule goes on behind its end,
the fourth has a semicolon between braces and the last one is not followed by any. -/
def spoiltRules : List Token :=
  let symbol (kind : Kind) : Token := ⟨kind, kind.text, 0, 0⟩
  let name (text : Text) : Token := ⟨.name, text, 0, 0⟩
  [symbol .if, symbol .parenClose, symbol .then, symbol .semicolon,
   symbol .semicolon,
   symbol .if, name "learns", symbol .parenOpen, name "a", symbol .parenClose, symbol .then,
   name "unlock", symbol .parenOpen, name "b", symbol .parenClose, name "c",
   symbol .semicolon,
   symbol .if, name "learns", symbol .parenOpen, name "d", symbol .parenClose, symbol .then,
   name "new_behavior", symbol .braceOpen, symbol .when, name "tired", symbol .arrow,
   name "seek", ⟨.string, "e", 0, 0⟩, symbol .semicolon, symbol .braceClose,
   symbol .semicolon,
   symbol .if, name "learns", symbol .parenOpen, name "f", symbol .parenClose, symbol .then,
   name "unlock", symbol .parenOpen, name "g", symbol .parenClose]

/-- Three entries are skipped with a notice each, the empty one among them, and the
others are read. -/
theorem entries_recover_spoilt :
    let reply := entries "evolution" false evolutionRule ⟨⟨.endOfInput, [], 0, 0⟩, 2, 0⟩
      (⟨.braceOpen, [], 0, 0⟩ :: (spoiltRules ++ [⟨.braceClose, [], 0, 0⟩]))
    (reply.events.filter Event.isNotice).length = 3 ∧ reply.outcome = .ok
      ([⟨some (.learns "d"), some (.adopt ⟨some .tired, some (.seek "e")⟩)⟩,
        ⟨some (.learns "f"), some (.unlock "g")⟩], []) := by
  obtain ⟨-, -, notices, outcome, -⟩ :=
    entries_recover .evolution ⟨⟨.endOfInput, [], 0, 0⟩, 2, 0⟩
    ⟨.braceOpen, [], 0, 0⟩ ⟨.braceClose, [], 0, 0⟩ spoiltRules [] rfl rfl rfl
      (by decide +kernel) (by decide +kernel)
  exact ⟨by rw [notices]; decide +kernel, by rw [outcome]; decide +kernel⟩

end Grammar

end Persona
