import Persona.Proofs.Grammar.Steady

/-!
# Where the nesting limit matters

The nesting limit is looked at only to refuse what is nested too deeply, and the refusal
is to be seen: it is the error that ends the reading, or the reason for which an entry
was skipped. So a reading that shows no such refusal would have been the same, event by
event, under every wider limit.
-/

namespace Persona

namespace Grammar

/-- Of two limits one is the wider. -/
theorem wider_total (first second : Int) : Wider first second ∨ Wider second first := by
  by_cases less : second ≤ 0 ∨ 0 < first ∧ first ≤ second
  · exact .inl fun depth limited forbidden => by omega
  · exact .inr fun depth limited forbidden => by omega

/-- A document in which nothing is refused as nested too deeply is read the same under
every wider limit. -/
theorem document_wider {setting : Setting} {tokens : List Token} {wide : Int}
    (wider : Wider setting.limit wide) (roomy : (document setting tokens).Roomy) :
    document { setting with limit := wide } tokens = document setting tokens := by
  have steady : Steady id document := document_steady
  have same := steady setting tokens wide (.inr ⟨wider, roomy⟩)
  rw [Reply.moved_id, Token.moved_id, List.map_id] at same
  exact same

end Grammar

/-- The error refuses what is nested too deeply, or tells that an entry was skipped for
that reason. -/
def ParseError.isTooDeep (e : ParseError) : Bool :=
  match e.fault with
  | .grammatical error | .skipped _ error => error.isTooDeep
  | .lexical _ | .unreadable _ | .stated _ _ => false

/-- Nothing in the document was refused because it is nested too deeply. -/
structure Reading.Roomy (reading : Reading) : Prop where
  notices : ∀ e ∈ reading.notices, e.isTooDeep = false
  result : ∀ errors, reading.result = .error errors → ∀ e ∈ errors, e.isTooDeep = false

namespace Personality

open Grammar

/-- The notices tell of every entry that was skipped as nested too deeply, and
of no other. -/
theorem roomy_notices_iff (source : Source) (events : List Event) :
    (∀ e ∈ events.filterMap (Event.notice? source), e.isTooDeep = false) ↔
      ∀ event ∈ events, event.isTooDeep = false := by
  simp only [List.mem_filterMap, forall_exists_index, and_imp]
  rw [forall_comm]
  refine forall_congr' fun event => ?_
  cases event <;> simp [Event.notice?, Event.isTooDeep, ParseError.isTooDeep,
    ParseError.ofSkipped]

/-- What the grammar refuses shows in the reading, as an error or as a notice, and
nothing else does. -/
theorem roomy_read_iff {options : ReadingOptions} {text : Text} :
    (read options text).Roomy ↔
      ∀ stream, Token.scan text = .ok stream →
        (document ⟨stream.last, options.limit, 0⟩ stream.tokens).Roomy := by
  unfold read
  cases Token.scan text with
  | error e =>
    refine iff_of_true ⟨by simp, ?_⟩ fun stream scanned => by cases scanned
    rintro _ ⟨⟩
    simp [ParseError.isTooDeep, ParseError.ofLexError]
  | ok stream =>
    simp only [Except.ok.injEq, forall_eq']
    generalize document ⟨stream.last, options.limit, 0⟩ stream.tokens = reply
    have noticed := roomy_notices_iff (Source.ofText options.file text) reply.events
    constructor
    · intro roomy
      refine ⟨noticed.mp roomy.notices, fun e failed => ?_⟩
      have told : (ParseError.ofSyntaxError (Source.ofText options.file text) e).isTooDeep =
          e.isTooDeep := rfl
      rw [← told]
      have refused := roomy.result
      simp only [failed] at refused
      exact refused _ rfl _ (List.mem_append_right _ (List.mem_singleton_self _))
    · intro roomy
      have silent := noticed.mpr roomy.events
      refine ⟨silent, fun errors failed e member => ?_⟩
      -- In a strict reading the notices are errors as well.
      obtain ⟨held, isHeld, held_silent⟩ : ∃ held, held = (if options.strict then
          reply.events.filterMap (Event.notice? (Source.ofText options.file text)) else []) ∧
          (e ∈ held → e.isTooDeep = false) := by
        refine ⟨_, rfl, ?_⟩
        split
        · exact silent e
        · exact nofun
      rw [← isHeld] at failed
      dsimp only at failed
      split at failed
      · rename_i refusal outcome
        obtain rfl := Except.error.inj failed
        rcases List.mem_append.mp member with earlier | last
        · exact held_silent earlier
        · obtain rfl := List.mem_singleton.mp last
          exact roomy.outcome refusal outcome
      · split at failed
        · cases failed
        · obtain rfl := Except.error.inj failed
          exact held_silent member

/-- The name of the file plays no part in what is refused. -/
theorem roomy_file {options : ReadingOptions} {text : Text} (file : Text)
    (roomy : (read options text).Roomy) :
    (read { options with file := file } text).Roomy := by
  rw [roomy_read_iff] at roomy ⊢
  exact roomy

/-- A reading in which nothing was refused as nested too deeply is the same under every
wider limit. -/
theorem read_wider {options : ReadingOptions} {text : Text} {wide : Int}
    (wider : Wider options.limit wide) (roomy : (read options text).Roomy) :
    read { options with limit := wide } text = read options text := by
  cases scanned : Token.scan text with
  | error e => simp [read, scanned]
  | ok stream =>
    have same := document_wider wider (roomy_read_iff.mp roomy stream scanned)
    simp [read, scanned, same]

/-- Readings under two limits in neither of which anything was refused as nested too
deeply are the same. -/
theorem read_limit {options : ReadingOptions} {text : Text} {limit : Int}
    (first : (read options text).Roomy)
    (second : (read { options with limit := limit } text).Roomy) :
    read { options with limit := limit } text = read options text := by
  rcases wider_total options.limit limit with wider | wider
  · exact read_wider wider first
  · exact (read_wider wider second).symm

/-- A strict reading that succeeds has refused nothing. -/
theorem roomy_of_strict {options : ReadingOptions} {text : Text} {p : Personality}
    (strict : options.strict = true)
    (succeeds : (read options text).result = .ok p) : (read options text).Roomy := by
  have silent : (read options text).notices = [] := by
    obtain ⟨file, _, limit⟩ := options
    obtain rfl : _ = true := strict
    have noticed : (read ⟨file, true, limit⟩ text).notices =
        (read ⟨file, false, limit⟩ text).notices := by
      unfold read
      cases Token.scan text <;> rfl
    rw [noticed]
    exact ((read_strict_iff_silent file text limit p).mp succeeds).2
  refine ⟨by simp [silent], fun errors failed => ?_⟩
  rw [succeeds] at failed
  cases failed

end Personality

end Persona
