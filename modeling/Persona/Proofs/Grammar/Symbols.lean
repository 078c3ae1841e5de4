import Persona.Proofs.Grammar.Reads

/-!
# Parsers and the symbols they take

A grammar does not see where a token stands, nor how a symbol or a keyword was written:
it sees a symbol. Two judgments relate a parser to the symbols in front of it.

The first says what a parser takes: whatever it reads successfully, the tokens it took
satisfy a condition, and whether it succeeds or fails it gives no notice of a skipped
entry. The second says what a parser accepts when nesting is not limited: in front of
these symbols it succeeds and stops there. The rules of both follow the way parsers are
put together.
-/

namespace Persona

/-- The kinds whose tokens have a text of their own. -/
def Kind.carriesText (kind : Kind) : Bool := kind = .name || kind = .string || kind = .number

/-- A token as a grammar sees it. -/
def Token.symbol (t : Token) : Spelling :=
  (t.kind, if t.kind.carriesText then t.value else t.kind.text)

/-- The symbol of a token of a fixed kind. -/
theorem Token.symbol_fixed {t : Token} {kind : Kind} (isKind : t.kind = kind)
    (bare : kind.carriesText = false) :
    t.symbol = .fixed kind := by
  subst isKind
  simp [Token.symbol, Spelling.fixed, bare]

/-- The symbol of a token with a text of its own. -/
theorem Token.symbol_own {t : Token} {kind : Kind} (isKind : t.kind = kind)
    (own : kind.carriesText = true) :
    t.symbol = (kind, t.value) := by
  subst isKind
  simp [Token.symbol, own]

/-- The symbol of a word. -/
theorem Token.symbol_word {t : Token} (isWord : t.kind = .name) : t.symbol = .word t.value :=
  Token.symbol_own isWord rfl

/-- The symbol of a string. -/
theorem Token.symbol_quoted {t : Token} (isString : t.kind = .string) :
    t.symbol = .quoted t.value :=
  Token.symbol_own isString rfl

/-- The value of a token with a text of its own is the text of its symbol. -/
theorem Token.value_of_symbol {t : Token} {kind : Kind} {text : Text}
    (same : t.symbol = (kind, text))
    (own : kind.carriesText = true) : t.kind = kind ∧ t.value = text := by
  have isKind : t.kind = kind := congrArg Prod.fst same
  rw [Token.symbol_own isKind own] at same
  exact ⟨isKind, congrArg Prod.snd same⟩

/-- The event is the notice of a skipped entry. -/
def Event.isNotice : Event → Bool
  | .skipped _ _ => true
  | .unknownCondition _ | .unknownTrigger _ => false

/-- No entry was skipped. -/
def Silent (events : List Event) : Prop := ∀ event ∈ events, event.isNotice = false

/-- Nothing happened, so no entry was skipped. -/
theorem Silent.nil : Silent [] := by simp [Silent]

/-- No entry was skipped in either part. -/
theorem silent_append {first second : List Event} : Silent (first ++ second) ↔
    Silent first ∧ Silent second := by
  simp [Silent, or_imp, forall_and]

/-- A silent reading has no notices, whatever the source is called. -/
theorem notices_eq_nil_iff (source : Source) (events : List Event) :
    events.filterMap (Event.notice? source) = [] ↔ Silent events := by
  rw [List.filterMap_eq_nil_iff, Silent]
  refine forall₂_congr fun event _ => ?_
  cases event <;> simp [Event.notice?, Event.isNotice]

namespace Grammar

open Grammar.Parser

variable {α β : Type}

/-- A second part is not reached when the first one fails. -/
theorem Parser.bind_error {p : Parser α} {setting : Setting} {tokens : List Token}
    {e : SyntaxError} (failed : (p setting tokens).outcome = .error e) (next : α → Parser β) :
    (p >>= next) setting tokens = ⟨(p setting tokens).events, .error e⟩ := by
  change Parser.bind p next setting tokens = _
  simp [Parser.bind, failed]

/-- A second part reads what the first one leaves. -/
theorem Parser.bind_ok {p : Parser α} {setting : Setting} {tokens left : List Token}
    {value : α}
    (read : (p setting tokens).outcome = .ok (value, left)) (next : α → Parser β) :
    (p >>= next) setting tokens =
      ⟨(p setting tokens).events ++ (next value setting left).events,
      (next value setting left).outcome⟩ := by
  change Parser.bind p next setting tokens = _
  simp [Parser.bind, read]

/-- The parser gives no notice here, and if it succeeds then of what it took, its value
and what it left the condition holds. -/
def TakesFrom (p : Parser α) (setting : Setting) (tokens : List Token)
    (post : List Token → α → List Token → Prop) : Prop :=
  setting.last.kind = .endOfInput → Silent (p setting tokens).events ∧
    ∀ value left, (p setting tokens).outcome = .ok (value, left) →
      ∃ used, tokens = used ++ left ∧ post used value left

/-- The parser gives no notice anywhere, and of what it takes the condition holds. -/
def Takes (p : Parser α) (post : List Token → α → List Token → Prop) : Prop :=
  ∀ setting tokens, TakesFrom p setting tokens post

/-- The token is the next one, or the end. -/
def Sees (setting : Setting) (tokens : List Token) (t : Token) :
    Prop := tokens.head?.getD setting.last = t

namespace TakesFrom

variable {p q : Parser α} {setting : Setting} {tokens : List Token}
    {post : List Token → α → List Token → Prop}
  {next : α → Parser β} {wanted : List Token → β → List Token → Prop}

/-- Reading nothing. -/
theorem pure {value : α} (holds : post [] value tokens) :
    TakesFrom (Pure.pure value) setting tokens post := by
  refine fun _ => ⟨Silent.nil, ?_⟩
  rintro _ _ ⟨rfl⟩
  exact ⟨[], rfl, holds⟩

/-- A failure takes nothing. -/
theorem failAt (token : Token) (cause : SyntaxError.Cause) :
    TakesFrom (Parser.failAt token cause : Parser α) setting tokens post := by
  refine fun _ => ⟨Silent.nil, ?_⟩
  rintro _ _ ⟨⟩

/-- Reading one part here and then another. -/
theorem bindFrom {m : List Token → α → List Token → Prop}
    (takes : TakesFrom p setting tokens m)
    (continues : ∀ used value left, tokens = used ++ left → m used value left →
      TakesFrom (next value) setting left fun more => wanted (used ++ more)) :
    TakesFrom (p >>= next) setting tokens wanted := by
  intro ends
  obtain ⟨silent, taken⟩ := takes ends
  cases outcome : (p setting tokens).outcome with
  | error e =>
    rw [Parser.bind_error outcome next]
    exact ⟨silent, by rintro _ _ ⟨⟩⟩
  | ok answer =>
    obtain ⟨value, left⟩ := answer
    rw [Parser.bind_ok outcome next]
    obtain ⟨used, rfl, holds⟩ := taken value left outcome
    obtain ⟨silentAfter, takenAfter⟩ := continues used value left rfl holds ends
    refine ⟨silent_append.mpr ⟨silent, silentAfter⟩, fun result rest read => ?_⟩
    obtain ⟨more, rfl, finished⟩ := takenAfter result rest read
    exact ⟨used ++ more, (List.append_assoc ..).symm, finished⟩

/-- Reading one part and then another. -/
theorem bind {m : List Token → α → List Token → Prop} (takes : Takes p m)
    (continues : ∀ used value left, tokens = used ++ left → m used value left →
      TakesFrom (next value) setting left fun more => wanted (used ++ more)) :
    TakesFrom (p >>= next) setting tokens wanted :=
  bindFrom (takes setting tokens) continues

/-- A weaker conclusion. -/
theorem imp {weaker : List Token → α → List Token → Prop}
    (takes : TakesFrom p setting tokens post)
    (implies : ∀ used value left, post used value left → weaker used value left) :
    TakesFrom p setting tokens weaker := by
  intro ends
  obtain ⟨silent, taken⟩ := takes ends
  refine ⟨silent, fun value left read => ?_⟩
  obtain ⟨used, split, holds⟩ := taken value left read
  exact ⟨used, split, implies used value left holds⟩

/-- Either of two parsers. -/
theorem ite {condition : Prop} [Decidable condition]
    (holds : condition → TakesFrom p setting tokens post)
    (fails : ¬ condition → TakesFrom q setting tokens post) :
    TakesFrom (if condition then p else q) setting tokens post := by
  split
  · exact holds ‹_›
  · exact fails ‹_›

/-- Looking at the next token. -/
theorem look {next : Token → Parser α}
    (continues : ∀ t, Sees setting tokens t → TakesFrom (next t) setting tokens post) :
    TakesFrom (Parser.current >>= next) setting tokens post := by
  refine bindFrom (m := fun used t left => used = [] ∧ left = tokens ∧
    Sees setting tokens t) ?_ ?_
  · refine fun _ => ⟨Silent.nil, ?_⟩
    rintro _ _ ⟨rfl⟩
    exact ⟨[], rfl, rfl, rfl, by cases tokens <;> rfl⟩
  · rintro _ t _ - ⟨rfl, rfl, seen⟩
    exact continues t seen

/-- Looking one token further. -/
theorem lookAhead {next : Token → Parser α}
    (continues : ∀ t, Sees setting tokens.tail t → TakesFrom (next t) setting tokens post) :
    TakesFrom (Parser.peek 1 >>= next) setting tokens post := by
  refine bindFrom (m := fun used t left => used = [] ∧ left = tokens ∧
    Sees setting tokens.tail t) ?_ ?_
  · refine fun _ => ⟨Silent.nil, ?_⟩
    rintro _ _ ⟨rfl⟩
    refine ⟨[], rfl, rfl, rfl, ?_⟩
    rcases tokens with _ | ⟨_, _ | ⟨_, _⟩⟩ <;> rfl
  · rintro _ t _ - ⟨rfl, rfl, seen⟩
    exact continues t seen

/-- Comparing the kind of the next token. -/
theorem check {kind : Kind} {next : Bool → Parser α}
    (continues : ∀ t, Sees setting tokens t →
      TakesFrom (next (t.kind = kind)) setting tokens post) :
    TakesFrom (Parser.check kind >>= next) setting tokens post := by
  change TakesFrom (Parser.current >>= fun t => next (t.kind = kind)) setting tokens post
  exact look continues

/-- Taking a token that was seen to be there. -/
theorem take {t : Token} {next : Token → Parser α} (seen : Sees setting tokens t)
    (there : t.kind ≠ .endOfInput)
    (continues : ∀ rest, tokens = t :: rest → TakesFrom (next t) setting rest fun more =>
      post (t :: more)) :
    TakesFrom (Parser.advance >>= next) setting tokens post := by
  intro ends
  cases tokens with
  | nil =>
    obtain rfl : setting.last = t := seen
    exact absurd ends there
  | cons first rest =>
    obtain rfl : first = t := seen
    refine bindFrom (m := fun used taken left => used = [first] ∧ taken = first ∧
      left = rest) ?_ ?_ ends
    · refine fun _ => ⟨Silent.nil, ?_⟩
      rintro _ _ ⟨rfl⟩
      exact ⟨[first], rfl, rfl, rfl, rfl⟩
    · rintro _ _ _ - ⟨rfl, rfl, rfl⟩
      exact continues _ rfl

/-- One level deeper. -/
theorem nested (takes : ∀ setting, TakesFrom p setting tokens post) :
    TakesFrom (Parser.nested p) setting tokens post := by
  intro ends
  unfold Parser.nested
  split
  · exact TakesFrom.look (fun t _ => TakesFrom.failAt t (.tooDeep setting.limit)) ends
  · exact takes _ ends

end TakesFrom

namespace Takes

variable {p : Parser α} {post : List Token → α → List Token → Prop}

/-- A weaker conclusion. -/
theorem imp {weaker : List Token → α → List Token → Prop} (takes : Takes p post)
    (implies : ∀ used value left, post used value left → weaker used value left) :
    Takes p weaker :=
  fun setting tokens => (takes setting tokens).imp implies

/-- A token of a kind that is asked for. -/
theorem expect (kind : Kind) (inside : kind ≠ .endOfInput) :
    Takes (Parser.expect kind) fun used t _ => used = [t] ∧ t.kind = kind := by
  intro setting tokens
  refine TakesFrom.look fun t seen => TakesFrom.ite (fun isKind => ?_) fun _ =>
    TakesFrom.failAt t _
  change TakesFrom (Parser.advance >>= Pure.pure) setting tokens _
  exact TakesFrom.take seen (by rwa [isKind]) fun rest _ => TakesFrom.pure ⟨rfl, isKind⟩

/-- A symbol or keyword that is asked for. -/
theorem fixed (kind : Kind) (inside : kind ≠ .endOfInput) (bare : kind.carriesText = false) :
    Takes (Parser.expect kind) fun used t _ => used = [t] ∧ t.symbol = .fixed kind :=
  (expect kind inside).imp fun _ _ _ ⟨one, isKind⟩ => ⟨one, Token.symbol_fixed isKind bare⟩

/-- Noting that a word was taken for something more general. -/
theorem note {event : Event} (heard : event.isNotice = false) :
    Takes (Parser.note event) fun used _ _ => used = [] := by
  refine fun setting tokens _ => ⟨by simpa [Silent, Parser.note] using heard, ?_⟩
  rintro _ _ ⟨rfl⟩
  exact ⟨[], rfl, rfl⟩

/-- A parser that is told how many tokens there are. -/
theorem ofLength {p : Nat → Parser α}
    (takes : ∀ setting tokens, TakesFrom (p tokens.length) setting tokens post) :
    Takes (fun setting tokens => p tokens.length setting tokens) post :=
  fun setting tokens ends => takes setting tokens ends

/-- Reading between parentheses. -/
theorem parenthesized (takes : Takes p post) :
    Takes (Parser.parenthesized p) fun used value _ =>
    ∃ inner left, used.map Token.symbol = .fixed .parenOpen :: (inner.map Token.symbol ++
      [.fixed .parenClose]) ∧
      post inner value left := by
  intro setting tokens
  refine TakesFrom.bind (Takes.fixed .parenOpen (by decide) rfl) ?_
  rintro _ _ rest rfl ⟨rfl, isOpen⟩
  refine TakesFrom.bind takes ?_
  rintro inner value left rfl holds
  refine TakesFrom.bind (Takes.fixed .parenClose (by decide) rfl) ?_
  rintro _ _ left' rfl ⟨rfl, isClose⟩
  exact TakesFrom.pure ⟨inner, _, by simp [isOpen, isClose], holds⟩

end Takes

/-- Where nesting is not limited, the parser takes tokens with the symbols
`before` to a value of which `post` holds, leaves tokens with the symbols `after`,
and gives no notice. -/
def Accepts (p : Parser α) (before : List Spelling) (post : α → Prop)
    (after : List Spelling) : Prop :=
  ∀ setting tokens, setting.last.kind = .endOfInput → setting.limit ≤ 0 →
    tokens.map Token.symbol = before →
    Silent (p setting tokens).events ∧ ∃ value left,
      (p setting tokens).outcome = .ok (value, left) ∧ post value ∧
      left.map Token.symbol = after

/-- The token has the first of these symbols, or is the end when there is none. -/
def Displays (symbols : List Spelling) (t : Token) : Prop :=
  match symbols with
  | [] => t.kind = .endOfInput
  | s :: _ => t.symbol = s

/-- A displayed token has the kind of the next symbol. -/
theorem Displays.kind {symbols : List Spelling} {t : Token} (displayed : Displays symbols t) :
    t.kind = nextKind symbols := by
  cases symbols with
  | nil => exact displayed
  | cons s symbols => exact congrArg Prod.fst displayed

namespace Accepts

variable {before middle after : List Spelling} {post : α → Prop}

/-- Reading nothing. -/
theorem pure {value : α} (holds : post value) : Accepts (Pure.pure value) before post before :=
  fun _ tokens _ _ symbols => ⟨Silent.nil, value, tokens, rfl, holds, symbols⟩

/-- Reading one part and then another. -/
theorem bind {p : Parser α} {next : α → Parser β} {wanted : β → Prop}
    (accepts : Accepts p before post middle)
    (continues : ∀ value, post value → Accepts (next value) middle wanted after) :
    Accepts (p >>= next) before wanted after := by
  intro setting tokens ends unlimited symbols
  obtain ⟨silent, value, left, outcome, holds, leftSymbols⟩ :=
    accepts setting tokens ends unlimited symbols
  obtain ⟨silentAfter, finished⟩ :=
    continues value holds setting left ends unlimited leftSymbols
  rw [Parser.bind_ok outcome next]
  exact ⟨silent_append.mpr ⟨silent, silentAfter⟩, finished⟩

/-- Reading a part whose value is known and then another. -/
theorem andThen {p : Parser α} {next : α → Parser β} {value : α} {wanted : β → Prop}
    (accepts : Accepts p before (· = value) middle)
    (continues : Accepts (next value) middle wanted after) :
    Accepts (p >>= next) before wanted after := by
  refine bind accepts ?_
  rintro _ rfl
  exact continues

/-- One level deeper, which no limit forbids. -/
theorem nested {p : Parser α} (accepts : Accepts p before post after) :
    Accepts (Parser.nested p) before post after := by
  intro setting tokens ends unlimited symbols
  have free : ¬ (0 < setting.limit && setting.limit < setting.depth + 1) = true := by
    simp
    omega
  unfold Parser.nested
  rw [if_neg free]
  exact accepts _ tokens ends unlimited symbols

/-- A parser that is told how many tokens there are. -/
theorem ofLength {p : Nat → Parser α} (accepts : Accepts (p before.length) before post after) :
    Accepts (fun setting tokens => p tokens.length setting tokens) before post after := by
  intro setting tokens ends unlimited symbols
  have sameLength : tokens.length = before.length := by rw [← symbols, List.length_map]
  simpa only [sameLength] using accepts setting tokens ends unlimited symbols

/-- Looking ahead. -/
theorem peek (ahead : Nat) :
    Accepts (Parser.peek ahead) before (Displays (before.drop ahead)) before := by
  intro setting tokens ends unlimited symbols
  refine ⟨Silent.nil, _, tokens, rfl, ?_, symbols⟩
  subst symbols
  rw [← List.map_drop]
  cases remaining : tokens.drop ahead with
  | nil =>
    have past : tokens[ahead]? = none := by simpa using remaining
    rw [past]
    exact ends
  | cons t others =>
    have there : tokens[ahead]? = some t := by
      rw [← List.head?_drop, remaining]
      rfl
    rw [there]
    rfl

/-- Looking at the next token. -/
theorem current : Accepts Parser.current before (Displays before) before := peek 0

/-- Deciding by the next token, which has a text of its own. -/
theorem atOwn {kind : Kind} {text : Text} {next : Token → Parser α}
    (own : kind.carriesText = true)
    (accepts : ∀ start stop, Accepts (next ⟨kind, text, start, stop⟩) ((kind, text) ::
      before) post after) :
    Accepts (Parser.current >>= next) ((kind, text) :: before) post after := by
  refine bind current fun t displayed => ?_
  obtain ⟨rfl, rfl⟩ := Token.value_of_symbol displayed own
  exact accepts t.start t.stop

/-- Deciding by the next token, of which only the kind matters. -/
theorem atKind {s : Spelling} {next : Token → Parser α}
    (accepts : ∀ text start stop, Accepts (next ⟨s.1, text, start, stop⟩) (s :: before) post
      after) :
    Accepts (Parser.current >>= next) (s :: before) post after := by
  refine bind current fun t displayed => ?_
  obtain rfl : t.symbol = s := displayed
  exact accepts t.value t.start t.stop

/-- Deciding by the token behind the next one, of which only the kind matters. -/
theorem followedBy (kind : Kind) {next : Token → Parser α}
    (isKind : nextKind (before.drop 1) = kind)
    (accepts : ∀ text start stop, Accepts (next ⟨kind, text, start, stop⟩) before post after) :
    Accepts (Parser.peek 1 >>= next) before post after := by
  refine bind (peek 1) fun t displayed => ?_
  obtain rfl : t.kind = kind := displayed.kind.trans isKind
  exact accepts t.value t.start t.stop

/-- Taking the next token. -/
theorem advance {s : Spelling} :
    Accepts Parser.advance (s :: before) (fun t => t.symbol = s) before := by
  intro setting tokens ends unlimited symbols
  obtain ⟨t, left, rfl, shown, leftSymbols⟩ := List.map_eq_cons_iff.mp symbols
  exact ⟨Silent.nil, t, left, rfl, shown, leftSymbols⟩

/-- Taking the next token, whatever it is. -/
theorem skip {s : Spelling} {next : Token → Parser α}
    (accepts : ∀ t : Token, t.symbol = s → Accepts (next t) before post after) :
    Accepts (Parser.advance >>= next) (s :: before) post after :=
  bind advance accepts

/-- Comparing the kind of the next token. -/
theorem check (kind : Kind) :
    Accepts (Parser.check kind) before (fun holds =>
      holds = decide (nextKind before = kind)) before :=
  bind current fun t displayed => pure (by rw [displayed.kind])

/-- Taking a token of the kind that is there. -/
theorem expect {s : Spelling} {kind : Kind} (isKind : s.1 = kind) :
    Accepts (Parser.expect kind) (s :: before) (fun t => t.symbol = s) before := by
  refine bind current fun t displayed => ?_
  rw [if_pos (show t.kind = kind from displayed.kind.trans isKind)]
  exact advance

/-- Noting that a word was taken for something more general. -/
theorem note {event : Event} (heard : event.isNotice = false) :
    Accepts (Parser.note event) before (fun _ => True) before :=
  fun _ tokens _ _ symbols =>
    ⟨by simpa [Silent, Parser.note] using heard, (), tokens, rfl, trivial, symbols⟩

/-- Reading between parentheses. -/
theorem parenthesized {p : Parser α}
    (accepts : Accepts p before post (.fixed .parenClose :: after)) :
    Accepts (Parser.parenthesized p) (.fixed .parenOpen :: before) post after :=
  bind (expect rfl) fun _ _ => bind accepts fun _ holds => bind (expect rfl) fun _ _ =>
    pure holds

end Accepts

end Grammar

end Persona
