import Persona.Proofs.Grammar.Routines
import Persona.Proofs.Grammar.Limit

/-!
# Readers

A reader takes a text apart into tokens, until the end or the first failure, and runs the
program of a document over them. It keeps its cursor from one reading to the next: what it
noted is forgotten and the position is set back, but the nesting counter is left as it is.

Every reading comes to its end for whoever waits for more turns than the text has
characters, and is what reading a document is defined to be, the first one and every one
after it. So do the readings of fragments.
-/

namespace Persona

/-- All tokens, the end with them, or the first failure: the scanner is asked until
it says so. There is no answer where it would have to be asked more often than
`turns` times. -/
def Scanner.tokens : (turns : Nat) → Scanner → Option (Except LexError (List Token))
  | 0, _ => none
  | turns + 1, s =>
    let (token, after) := s.next
    match after.failure with
    | some (e, _, _) => some (.error e)
    | none =>
      if token.kind = .endOfInput then some (.ok [token])
      else do
        let others ← tokens turns after
        return others.map (token :: ·)

/-- Skipping leaves no more characters. -/
theorem Token.skipGap_length {gap : Gap} {offset stop : Nat} {cs left : List Character}
    (skipped : skipGap gap offset cs = .ok (stop, left)) : left.length ≤ cs.length := by
  fun_induction skipGap gap offset cs
  all_goals grind

/-- A token that is not the end takes a character. -/
theorem Scanner.next_shorter {s : Scanner} (fresh : s.failure = none)
    (read : s.next.2.failure = none)
    (inside : s.next.1.kind ≠ .endOfInput) : s.next.2.rest.length < s.rest.length := by
  unfold Scanner.next at read inside ⊢
  rw [fresh] at read inside ⊢
  dsimp only at read inside ⊢
  cases skipped : Token.skipGap .open s.offset s.rest with
  | error ends =>
    rw [skipped] at read
    cases read
  | ok gap =>
    obtain ⟨offset, characters⟩ := gap
    rw [skipped] at read inside
    have shorter := Token.skipGap_length skipped
    cases characters with
    | nil => exact absurd rfl inside
    | cons first rest =>
      dsimp only at read inside ⊢
      cases lexed : Token.lexeme first rest with
      | mk verdict taken left =>
        rw [lexed] at read
        cases verdict with
        | error cause => cases read
        | ok kind =>
          obtain ⟨tail, rfl, rfl⟩ := (Token.lexeme_cases lexed).covers
          simp at shorter ⊢
          omega

/-- The scanner is asked at most once for each character, and once for the end. -/
theorem Scanner.tokens_collect (fuel turns : Nat) {s : Scanner} (fresh : s.failure = none)
    (enough : s.rest.length < fuel) (patient : s.rest.length < turns) :
    s.tokens turns = some ((s.collect fuel).map fun stream =>
      stream.tokens ++ [stream.last]) := by
  induction fuel generalizing turns s with
  | zero => exact absurd enough (Nat.not_lt_zero _)
  | succ fuel inductionHypothesis =>
    obtain ⟨turns, rfl⟩ := Nat.exists_eq_add_one_of_ne_zero (Nat.ne_zero_of_lt patient)
    rw [Scanner.tokens, Scanner.collect]
    dsimp only
    cases read : s.next.2.failure with
    | some failure => rfl
    | none =>
      by_cases isEnd : s.next.1.kind = .endOfInput
      · simp [isEnd, Except.map]
      · have shorter := Scanner.next_shorter fresh read isEnd
        simp only [isEnd, if_false, inductionHypothesis turns read (by omega) (by omega)]
        cases s.next.2.collect fuel <;> rfl

/-- Asking the scanner of a text for all its tokens comes to an end. -/
theorem Scanner.tokens_ofText {text : Text} {patience : Nat}
    (patient : text.characters.length < patience) :
    (Scanner.ofText text).tokens patience =
      some ((Token.scan text).map fun stream => stream.tokens ++ [stream.last]) :=
  Scanner.tokens_collect _ _ rfl (Nat.lt_succ_self _) patient

/-- There is a character for every token. -/
theorem Scanner.collect_length {fuel : Nat} {s : Scanner} {stream : Stream}
    (fresh : s.failure = none)
    (collected : s.collect fuel = .ok stream) : stream.tokens.length ≤ s.rest.length := by
  induction fuel generalizing s stream with
  | zero =>
    cases collected
    exact Nat.zero_le _
  | succ fuel inductionHypothesis =>
    rw [Scanner.collect] at collected
    dsimp only at collected
    cases read : s.next.2.failure with
    | some failure => simp [read] at collected
    | none =>
      by_cases isEnd : s.next.1.kind = .endOfInput
      · simp only [read, isEnd, if_true] at collected
        cases collected
        exact Nat.zero_le _
      · have shorter := Scanner.next_shorter fresh read isEnd
        simp only [read, isEnd, if_false] at collected
        cases later : s.next.2.collect fuel with
        | error e =>
          rw [later] at collected
          cases collected
        | ok others =>
          rw [later] at collected
          cases collected
          exact (Nat.succ_le_succ (inductionHypothesis read later)).trans shorter

namespace Grammar

/-- The tokens of a text, with a nesting limit, and patience for as many turns as there
are characters. -/
def Scanned.ofScan {text : Text} {stream : Scanner.Stream}
    (scanned : Token.scan text = .ok stream) (limit : Int)
    {patience : Nat} (patient : text.characters.length < patience) : Scanned where
  tokens := stream.tokens
  last := stream.last
  limit
  patience
  ends := (Token.scan_clean scanned).2
  inside := Scanner.collect_inside scanned
  patient := Nat.lt_of_le_of_lt (Scanner.collect_length rfl scanned) patient

/-- The cursor at the start of an array. -/
def Cursor.start : Cursor := ⟨0, 0, [], []⟩

end Grammar

open Grammar

/-- A reader of one text. -/
structure Reader where
  options : ReadingOptions
  text : Text
  cursor : Cursor

namespace Reader

/-- A reader that has not read yet. -/
def new (options : ReadingOptions) (text : Text) : Reader := ⟨options, text, .start⟩

/-- The source that errors are located in. -/
def source (r : Reader) : Source := .ofText r.options.file r.text

/-- The notices of the entries that were skipped in the last reading. -/
def notices (r : Reader) : List ParseError :=
  r.cursor.events.filterMap (Event.notice? r.source)

/-- What was recorded in the last reading. -/
def records (r : Reader) : List Log.Record := r.cursor.events.map (Event.record r.source)

/-- The notices that are errors. -/
def held (r : Reader) : List ParseError := if r.options.strict then r.notices else []

/-- The personality, or every error there is to report. -/
def result (r : Reader) : Except SyntaxError Personality → Except (List ParseError) Personality
  | .error e => .error (r.held ++ [.ofSyntaxError r.source e])
  | .ok personality => if r.held.isEmpty then .ok personality else .error r.held

/-- Read the document, and wait for this many turns of each loop. -/
def parse (r : Reader) (patience : Nat) :
    Option (Except (List ParseError) Personality × Reader) := do
  match ← (Scanner.ofText r.text).tokens patience with
  | .error e => return (.error [.ofLexError r.source e], r)
  | .ok tokens =>
    let tape : Tape := ⟨tokens, r.options.limit, patience⟩
    let (outcome, cursor) ← Program.document tape { r.cursor with position := 0, events := [] }
    let after := { r with cursor }
    return (after.result outcome, after)

/-- The readers of a text that were used any number of times, with patience. -/
inductive Reached (options : ReadingOptions) (text : Text) : Reader → Prop where
  | new : Reached options text (new options text)
  | again {r after : Reader} {result : Except (List ParseError) Personality} {patience : Nat}
      (reached : Reached options text r) (patient : text.characters.length < patience)
      (read : r.parse patience = some (result, after)) : Reached options text after

/-- What is left by the readings of a text: the nesting counter is at zero, entries were
begun at zero only, and all marks are inside the array. Where there are no tokens,
nothing was read. -/
structure Ready (options : ReadingOptions) (text : Text) (r : Reader) : Prop where
  sameOptions : r.options = options
  sameText : r.text = text
  depth : r.cursor.depth = 0
  begun : ∀ done ∈ r.cursor.marks, done.BeganAt true 0
  within : ∀ stream, Token.scan text = .ok stream →
    r.cursor.position < stream.tokens.length + 1 ∧
    ∀ done ∈ r.cursor.marks, done.Within (stream.tokens.length + 1)
  quiet : ∀ e, Token.scan text = .error e → r.cursor.events = []

/-- A reader that has not read yet is ready. -/
theorem ready_new (options : ReadingOptions) (text : Text) :
    Ready options text (new options text) where
  sameOptions := rfl
  sameText := rfl
  depth := rfl
  begun := nofun
  within := fun _ _ => ⟨Nat.zero_lt_succ _, nofun⟩
  quiet := fun _ _ => rfl

/-- A reader that is ready comes to the end of its reading, which is what reading the
document is defined to be, and is ready again. -/
theorem Ready.parse {options : ReadingOptions} {text : Text} {r : Reader}
    (ready : Ready options text r)
    {patience : Nat} (patient : text.characters.length < patience) :
    ∃ after, r.parse patience = some ((Personality.read options text).result, after) ∧
      after.notices = (Personality.read options text).notices ∧
      after.records = (Personality.read options text).records ∧ Ready options text after := by
  obtain ⟨rfl, rfl, depth, begun, within, quiet⟩ := ready
  unfold Personality.read
  cases scanned : Token.scan r.text with
  | error e =>
    have failed : r.parse patience = some (.error [.ofLexError r.source e], r) := by
      rw [Reader.parse, Scanner.tokens_ofText patient, scanned]
      rfl
    refine ⟨r, failed, ?_, ?_, ⟨rfl, rfl, depth, begun, within, quiet⟩⟩
    · simp [notices, quiet e scanned]
    · simp [records, quiet e scanned]
  | ok stream =>
    have size : (Scanned.ofScan scanned r.options.limit patient).tape.size =
        stream.tokens.length + 1 :=
      Scanned.size_eq _
    have holds : (Scanned.ofScan scanned r.options.limit patient).Holds 0
        { r.cursor with position := 0, events := [] } := ⟨by simp [size], depth⟩
    obtain ⟨⟨outcome, cursor⟩, ran, here⟩ := document_performs _ holds
    obtain ⟨-, begunNow⟩ := Program.document_keeps _ _ _ ran
    have readyAfter : Ready r.options r.text { r with cursor } := by
      refine ⟨rfl, rfl, here.holds.depth, ?_, fun other scannedOther => ?_, fun e failed => ?_⟩
      · dsimp only at begunNow
        rw [depth] at begunNow
        exact begunNow.forall_mem begun
      · cases scanned.symm.trans scannedOther
        exact ⟨size ▸ here.holds.inside,
          size ▸ here.marks.forall_mem (size ▸ (within stream scanned).2)⟩
      · cases scanned.symm.trans failed
    have events : cursor.events =
        (document ⟨stream.last, r.options.limit, 0⟩ stream.tokens).events :=
      here.events.trans (List.nil_append _)
    have outcomes : (document ⟨stream.last, r.options.limit, 0⟩ stream.tokens).outcome =
        _ := here.outcome
    have ranTo : r.parse patience = some (Reader.result { r with cursor } outcome,
        { r with cursor }) := by
      rw [Reader.parse, Scanner.tokens_ofText patient, scanned]
      exact congrArg (Option.bind · _) ran
    refine ⟨{ r with cursor }, ranTo.trans ?_, congrArg (List.filterMap _) events,
      congrArg (List.map _) events,
      readyAfter⟩
    dsimp only
    rw [outcomes, ← events]
    cases outcome <;> rfl

/-- A reader that was used any number of times is ready. -/
theorem Reached.ready {options : ReadingOptions} {text : Text} {r : Reader}
    (reached : Reached options text r) :
    Ready options text r := by
  induction reached with
  | new => exact ready_new options text
  | again reached patient read ready =>
    obtain ⟨after, parsed, -, -, readyAfter⟩ := ready.parse patient
    cases read.symm.trans parsed
    exact readyAfter

end Reader

namespace Fragment

variable {α : Type}

/-- The parts of a document that are read on their own, with what they are called
in messages. -/
inductive Part : {α : Type} → Text → Program α → Parser α → Prop where
  | modifier : Part "modifier" Program.modifier Grammar.modifier
  | behavior : Part "behavior" Program.behavior Grammar.behavior
  | evolutionRule : Part "evolution rule" Program.evolutionRule Grammar.evolutionRule
  | condition : Part "condition" Program.condition Grammar.condition
  | action : Part "action" Program.action Grammar.action
  | trigger : Part "trigger" Program.trigger Grammar.trigger
  | effect : Part "effect" Program.effect Grammar.effect
  | connections (owner : Text) : Part "connection" (Program.domainEntry owner)
      (Grammar.domainEntry owner)

/-- Every part is read by a routine. -/
theorem Part.routine {what : Text} {m : Program α} {p : Parser α} (part : Part what m p) :
    Routine m p := by
  cases part with
  | modifier => exact .modifier
  | behavior => exact .behavior
  | evolutionRule => exact .evolutionRule
  | condition => exact .condition
  | action => exact .action
  | trigger => exact .trigger
  | effect => exact .effect
  | connections owner => exact .domainEntry owner

/-- Read a text that is one part of a document, and wait for this many turns
of each loop. -/
def run (limit : Int) (patience : Nat) (what : Text) (m : Program α) (text : Text) :
    Option (Logged ParseError α × Cursor) := do
  let source := Source.ofText [] text
  match ← (Scanner.ofText text).tokens patience with
  | .error e => return (⟨[], .error (.ofLexError source e)⟩, .start)
  | .ok tokens =>
    let (outcome, cursor) ← Program.whole what m ⟨tokens, limit, patience⟩ .start
    return (⟨cursor.events.map (Event.record source),
      outcome.mapError (.ofSyntaxError source)⟩, cursor)

/-- Reading a part comes to an end, and is what reading it is defined to be. -/
theorem run_ends {m : Program α} {p : Parser α} (routine : Routine m p) (limit : Int)
    (what : Text) {text : Text}
    {patience : Nat} (patient : text.characters.length < patience) :
    ∃ reading cursor, run limit patience what m text = some (reading, cursor) ∧
      (limit = defaultLimit → reading = read what p text) ∧
      ∀ stream, Token.scan text = .ok stream → cursor.position < stream.tokens.length + 1 ∧
        ∀ done ∈ cursor.marks, done.Within (stream.tokens.length + 1) := by
  unfold run read
  rw [Scanner.tokens_ofText patient]
  cases scanned : Token.scan text with
  | error e => exact ⟨_, _, rfl, fun _ => rfl, nofun⟩
  | ok stream =>
    have size : (Scanned.ofScan scanned limit patient).tape.size =
        stream.tokens.length + 1 := Scanned.size_eq _
    have holds : (Scanned.ofScan scanned limit patient).Holds 0 .start :=
      ⟨by simp [size, Cursor.start], rfl⟩
    obtain ⟨⟨outcome, cursor⟩, ran, here⟩ := whole_performs what routine.performs _ holds
    refine ⟨_, cursor, congrArg (Option.bind · _) ran, ?_, fun other scannedOther => ?_⟩
    · rintro rfl
      have events : cursor.events = _ := here.events.trans (List.nil_append _)
      have outcomes : (whole what p ⟨stream.last, defaultLimit, 0⟩ stream.tokens).outcome =
          _ := here.outcome
      dsimp only
      rw [outcomes, events]
      cases outcome <;> rfl
    · cases scannedOther
      exact ⟨size ▸ here.holds.inside, size ▸ here.marks.forall_mem nofun⟩

end Fragment

/-- A reading that fails has errors to show. -/
theorem Personality.errors_ne_nil {options : ReadingOptions} {text : Text}
    {errors : List ParseError}
    (failed : (read options text).result = .error errors) : errors ≠ [] := by
  rintro rfl
  unfold read at failed
  dsimp only at failed
  split at failed
  · cases failed
  · dsimp only at failed
    split at failed
    · simp at failed
    · simp only [ite_eq_iff, reduceCtorEq, and_false, false_or, Except.error.injEq,
        List.isEmpty_iff] at failed
      exact failed.1 failed.2

/-- Every text is read to the end, as a document under any options and as any fragment
under any limit, by whoever waits for more turns of a loop than the text has characters.
The reading is what it is defined to be, and a failing one has errors to show. All along
the position is that of a token; every turn of a loop over entries, sections, modifiers or
operators leads further on; and so does every entry that is skipped, which is begun, read
as far as the error and left behind its separator. -/
theorem readings_end (options : ReadingOptions) (text : Text) {patience : Nat}
    (patient : text.characters.length < patience) :
    (∃ result after, (Reader.new options text).parse patience = some (result, after) ∧
      result = (Personality.read options text).result ∧
      (∀ errors, result = .error errors → errors ≠ []) ∧
      ∀ stream, Token.scan text = .ok stream →
        after.cursor.position < stream.tokens.length + 1 ∧
        ∀ done ∈ after.cursor.marks, done.Within (stream.tokens.length + 1)) ∧
    ∀ {α : Type} {what : Text} {m : Program α} {p : Parser α}, Fragment.Part what m p →
      ∀ limit,
      ∃ reading cursor, Fragment.run limit patience what m text = some (reading, cursor) ∧
        (limit = defaultLimit → reading = Fragment.read what p text) ∧
        ∀ stream, Token.scan text = .ok stream → cursor.position < stream.tokens.length + 1 ∧
          ∀ done ∈ cursor.marks, done.Within (stream.tokens.length + 1) := by
  refine ⟨?_, fun part limit => Fragment.run_ends part.routine limit _ patient⟩
  obtain ⟨after, read, -, -, ready⟩ := (Reader.ready_new options text).parse patient
  exact ⟨_, after, read, rfl, fun _ failed => Personality.errors_ne_nil failed, ready.within⟩

/-- A document with lists in its lists, nested terms, several modifiers and two entries
that are skipped. -/
def interrupted : Text :=
  "personality p \x7b traits \x7b
     calm: (1 + (2 - 3)) * 0.5 with decay(1 / day), when(mood: \"low\"); broken; shy: 0.25 \x7d
   knowledge \x7b domain(\"d\") \x7b tea: often; -> \"d\" (0.5) \x7d \x7d
   evolution \x7b if learns(\"t\") then calm += 0.1 \x7d \x7d"

/-- All of that document but the skipped entries is read, with a notice for each, from
within its tokens. -/
theorem readings_end_interrupted : interrupted.characters.length < 300 ∧
    ∃ p after, (Reader.new {} interrupted).parse 300 = some (.ok p, after) ∧
      (Personality.read {} interrupted).result = .ok p ∧
      p.traits.map Trait.name = (["calm", "shy"] : List Text) ∧ p.connections.length = 1 ∧
      p.evolution.length = 1 ∧ (Personality.read {} interrupted).notices.length = 2 ∧
      ∀ stream, Token.scan interrupted = .ok stream →
        after.cursor.position < stream.tokens.length + 1 ∧
        ∀ done ∈ after.cursor.marks, done.Within (stream.tokens.length + 1) := by
  have patient : interrupted.characters.length < 300 := by decide +kernel
  obtain ⟨result, after, read, same, -, inside⟩ := (readings_end {} interrupted patient).1
  have shape : (Personality.read {} interrupted).result.toOption.map
      (fun p => (p.traits.map Trait.name, p.connections.length, p.evolution.length)) =
        some ((["calm", "shy"] : List Text), 1, 1) := by decide +kernel
  cases result with
  | error errors => simp [← same, Except.toOption] at shape
  | ok p =>
    obtain ⟨names, connections, rules⟩ :
        p.traits.map Trait.name = (["calm", "shy"] : List Text) ∧ p.connections.length = 1 ∧
          p.evolution.length = 1 := by
      simpa [← same, Except.toOption] using shape
    exact ⟨patient, p, after, read, same.symm, names, connections,
      rules, by decide +kernel, inside⟩

/-- The nesting counter never leaks. Whatever the tokens and the limit are, a routine
that returns, with a value or with an error, leaves it as it found it, and on the tokens
of a text every routine returns. So all entries of a document are begun at zero, a reader
that is used again reads the same and notices the same, and a strict reading that
succeeds under a limit succeeds with the same personality under every wider limit and
under none. -/
theorem depth_returns :
    (∀ {α : Type} {m : Program α} {p : Parser α}, Routine m p →
      (∀ tape cursor outcome after, m tape cursor = some (outcome, after) →
      after.depth = cursor.depth) ∧
      ∀ (s : Scanned) (cursor : Cursor), cursor.position < s.tape.size → 0 ≤ cursor.depth →
        ∃ outcome after, m s.tape cursor = some (outcome, after)) ∧
    (∀ tape cursor outcome after, Program.document tape cursor = some (outcome, after) →
      ∃ added, after.marks = cursor.marks ++ added ∧ ∀ list depth,
        .began list depth ∈ added → depth = cursor.depth) ∧
    (∀ options text r, Reader.Reached options text r →
      ∀ patience, text.characters.length < patience → ∃ after,
      r.parse patience = some ((Personality.read options text).result, after) ∧
      after.notices = (Personality.read options text).notices ∧
      after.cursor.depth = 0 ∧ ∀ list depth, .began list depth ∈ after.cursor.marks →
      depth = 0) ∧
    ∀ (options : ReadingOptions) text p wide, options.strict = true → 0 < options.limit →
      options.limit ≤ wide ∨ wide ≤ 0 → (Personality.read options text).result = .ok p →
      (Personality.read { options with limit := wide } text).result = .ok p := by
  refine ⟨fun routine => ⟨?keeps, ?returns⟩, ?document, ?again, ?wider⟩
  case keeps => exact fun tape cursor outcome after ran => (routine.keeps tape cursor _ ran).1
  case returns =>
    intro s cursor inside nonneg
    have holds : s.Holds cursor.depth.toNat cursor :=
      ⟨inside, (Int.toNat_of_nonneg nonneg).symm⟩
    obtain ⟨⟨outcome, after⟩, ran, -⟩ := routine.performs cursor holds
    exact ⟨outcome, after, ran⟩
  case document =>
    intro tape cursor outcome after ran
    obtain ⟨-, added, same, held⟩ := Program.document_keeps tape cursor _ ran
    exact ⟨added, same, fun list depth member => (held _ member).2⟩
  case again =>
    intro options text r reached patience patient
    obtain ⟨after, read, notices, -, ready⟩ := reached.ready.parse patient
    exact ⟨after, read, notices, ready.depth, fun list depth member =>
      (ready.begun _ member).2⟩
  case wider =>
    intro options text p wide strict limited wider succeeds
    have allows : Wider options.limit wide := fun depth limits forbids => by omega
    rw [Personality.read_wider allows (Personality.roomy_of_strict strict succeeds)]
    exact succeeds

/-- An entry that fails two levels deep is skipped, and the next reading of the same
reader notices it again. -/
theorem depth_returns_skipped : ∃ r result after,
    (Reader.new {} "personality p \x7b traits \x7b a: ((b)); \x7d \x7d").parse 50 =
      some (result, r) ∧
      r.parse 50 = some (result, after) ∧ after.notices = r.notices ∧
      after.notices.length = 1 ∧
      after.cursor.depth = 0 := by
  have patient :
      (Text.characters "personality p \x7b traits \x7b a: ((b)); \x7d \x7d").length <
        50 := by decide +kernel
  obtain ⟨r, first, noticed, -⟩ := depth_returns.2.2.1 {} _ _ .new 50 patient
  obtain ⟨after, second, again, depth, -⟩ :=
    depth_returns.2.2.1 {} _ r (.again .new patient first) 50 patient
  have one :
      (Personality.read {}
        "personality p \x7b traits \x7b a: ((b)); \x7d \x7d").notices.length = 1 := by
    decide +kernel
  exact ⟨r, _, after, first, second, again.trans noticed.symm, again ▸ one, depth⟩

end Persona
