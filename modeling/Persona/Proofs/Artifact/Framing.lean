import Mathlib.Data.List.Basic
import Persona.Runner

/-!
# When a key tells requests apart

The bytes that are hashed for a key are the parts of the key, each followed by a zero
byte. Among lists of as many parts they determine the parts exactly when there is at
most one part or no part holds a zero byte: a zero byte inside a part can be taken for
the end of that part, and the end of a part for a zero byte inside it.

For requests this means that source, target and context are determined exactly when
none of them holds a zero byte; the degree and the mode of reading never hold one.
All of this holds whatever the digest is. It takes equal bytes to equal keys, so a request
that is run after another one for which the same bytes are hashed is answered from the
cache. Whether a digest takes different bytes to different keys is another question.
-/

namespace Persona

namespace Artifact

/-- No other list of as many parts is hashed as the same bytes. -/
def Determined (parts : List Text) : Prop :=
  ∀ others : List Text, others.length = parts.length → framed others = framed parts →
    others = parts

/-- The bytes of the first part come first and end with a zero byte. -/
theorem framed_cons (part : Text) (parts : List Text) :
    framed (part :: parts) = part ++ 0 :: framed parts := by
  simp [framed]

/-- Lists of parts are hashed one after the other. -/
theorem framed_append (first second : List Text) :
    framed (first ++ second) = framed first ++ framed second :=
  List.flatMap_append

/-- Beside the zero bytes inside the parts there is one for each part. -/
theorem count_framed (parts : List Text) :
    (framed parts).count 0 = parts.length + parts.flatten.count 0 := by
  induction parts with
  | nil => rfl
  | cons part parts inductionHypothesis =>
    rw [framed_cons, List.count_append, List.count_cons_self, inductionHypothesis,
      List.flatten_cons, List.count_append, List.length_cons]
    omega

/-- A zero byte between two neighbours may end the first, or stand in it while a later
one ends it. -/
theorem framed_shift (before after : List Text) (first middle last : Text) :
    framed (before ++ first :: (middle ++ 0 :: last) :: after) =
      framed (before ++ (first ++ 0 :: middle) :: last :: after) := by
  simp [framed_append, framed_cons]

/-- Where neither of two texts holds a zero byte, the first zero byte behind them tells
where they end. -/
theorem append_zero_inj {part other rest others : Text} (plain : 0 ∉ part)
    (otherwise : 0 ∉ other)
    (same : other ++ 0 :: others = part ++ 0 :: rest) : other = part ∧ others = rest := by
  rcases List.append_eq_append_iff.mp same with ⟨more, rfl, tail⟩ | ⟨more, rfl, tail⟩
  all_goals
    cases more with
    | nil => simpa [eq_comm] using tail
    | cons byte more =>
      obtain ⟨rfl, -⟩ := List.cons.inj tail
      simp at plain otherwise

/-- Two lists of parts without zero bytes are equal when the same bytes are
hashed for them. -/
theorem eq_of_framed_eq {parts others : List Text} (plain : ∀ part ∈ parts, 0 ∉ part)
    (otherwise : ∀ part ∈ others, 0 ∉ part) (same : framed others = framed parts) :
    others = parts := by
  induction parts generalizing others with
  | nil =>
    cases others with
    | nil => rfl
    | cons other others => simp [framed] at same
  | cons part parts inductionHypothesis =>
    cases others with
    | nil => simp [framed] at same
    | cons other others =>
      obtain ⟨plainFirst, plainRest⟩ := List.forall_mem_cons.mp plain
      obtain ⟨otherFirst, otherRest⟩ := List.forall_mem_cons.mp otherwise
      rw [framed_cons, framed_cons] at same
      obtain ⟨sameFirst, sameRest⟩ := append_zero_inj plainFirst otherFirst same
      rw [sameFirst, inductionHypothesis plainRest otherRest sameRest]

/-- Parts without zero bytes are determined. The other list has as many parts and its
bytes as many zero bytes, so none is left to stand inside its parts. -/
theorem determined_of_plain {parts : List Text} (plain : ∀ part ∈ parts, 0 ∉ part) :
    Determined parts := by
  intro others sameLength same
  have none : parts.flatten.count 0 = 0 := by
    rw [List.count_eq_zero, List.mem_flatten]
    rintro ⟨part, member, zero⟩
    exact plain part member zero
  have otherNone : others.flatten.count 0 = 0 := by
    have counted := congrArg (List.count 0) same
    rw [count_framed, count_framed] at counted
    omega
  refine eq_of_framed_eq plain ?_ same
  intro part member zero
  exact List.count_eq_zero.mp otherNone (List.mem_flatten.mpr ⟨part, member, zero⟩)

/-- A single part is determined, whatever it holds. -/
theorem determined_of_length_le_one {parts : List Text} (short : parts.length ≤ 1) :
    Determined parts := by
  intro others sameLength same
  match parts, others with
  | [], [] => rfl
  | [part], [other] =>
    rw [framed_cons, framed_cons] at same
    rw [List.append_cancel_right same]
  | _ :: _ :: _, _ => simp at short

/-- Several parts one of which holds a zero byte are not determined: the byte can be
taken for the end of a part, and the end of that part or of the one before it for a
byte inside. -/
theorem not_determined {parts : List Text} (several : 1 < parts.length) {part : Text}
    (member : part ∈ parts) (zero : 0 ∈ part) : ¬ Determined parts := by
  intro determined
  obtain ⟨before, after, rfl⟩ := List.append_of_mem member
  obtain ⟨start, rest, rfl⟩ := List.append_of_mem zero
  cases after with
  | cons next after =>
    have same := determined (before ++ start :: (rest ++ 0 :: next) :: after) (by simp)
      (framed_shift ..)
    simp at same
  | nil =>
    -- The part is the last one, so it has a neighbour on its other side.
    rcases List.eq_nil_or_concat before with rfl | ⟨before, previous, rfl⟩
    · simp at several
    · have same := determined (before ++ (previous ++ 0 :: start) :: [rest]) (by simp)
        (by simpa using (framed_shift before [] previous start rest).symm)
      simp at same

/-- Parts are determined exactly when there is at most one or none holds a zero byte. -/
theorem determined_iff (parts : List Text) : Determined parts ↔ parts.length ≤ 1 ∨
    ∀ part ∈ parts, 0 ∉ part := by
  constructor
  · intro determined
    by_cases short : parts.length ≤ 1
    · exact .inl short
    · refine .inr fun part member zero => ?_
      exact not_determined (Nat.lt_of_not_le short) member zero determined
  · rintro (short | plain)
    · exact determined_of_length_le_one short
    · exact determined_of_plain plain

end Artifact

/-- What is stored is found. -/
theorem Artifact.Cache.get_set (c : Cache) (key : UInt64) (output : Text) :
    ((c.set key output).get key).1 = some output := by
  simp [get, set, Index.put, Index.entry?]

namespace Runner

variable {options : RunOptions} {cache after : Artifact.Cache} {q r : Request} {output : Text}

/-- A request that is found in the cache is answered with what is stored there. -/
theorem run_found (asked : q.canceled = false)
    (found : cache.get (q.key options) = (some output, after)) :
    (run ⟨options, some cache⟩ q).2.2 = { q.blank with output := output, cached := true } := by
  simp only [run, asked, found, Bool.false_eq_true, if_false]

/-- What is made for a request that is not found in the cache is stored under its key. -/
theorem run_missed (asked : q.canceled = false)
    (missed : cache.get (q.key options) = (none, after))
    (succeeds : (q.make options).2.failure = none) :
    run ⟨options, some cache⟩ q =
      (⟨options, some (after.set (q.key options) (q.make options).2.output)⟩,
      q.make options) := by
  simp only [run, asked, missed, succeeds, Bool.false_eq_true, if_false]

/-- What was stored for a request is returned for the next one with the same key. -/
theorem runAll_again (capacity : Int) (firstAsked : q.canceled = false)
    (secondAsked : r.canceled = false)
    (sameKey : q.key options = r.key options) (succeeds : (q.make options).2.failure = none) :
    (runAll ⟨options, some (.ofCapacity capacity)⟩ [q, r]).2.2 =
      [(q.make options).2,
      { r.blank with output := (q.make options).2.output, cached := true }] := by
  obtain ⟨looked, missed⟩ : ∃ looked,
      (Artifact.Cache.ofCapacity capacity).get (q.key options) = (none, looked) :=
    ⟨_, rfl⟩
  have stored := Artifact.Cache.get_set looked (r.key options) (q.make options).2.output
  have again := run_found secondAsked (Prod.ext stored rfl)
  simp only [runAll, run_missed firstAsked missed succeeds, sameKey, again]

end Runner

namespace Request

open Artifact

variable {q r : Request} {strict other : Bool}

/-- The parts of a key hold a zero byte only in the source, the target or the context. -/
theorem plain_keyParts (source : 0 ∉ q.source) (target : 0 ∉ q.target)
    (context : 0 ∉ q.context) :
    ∀ part ∈ q.keyParts strict, 0 ∉ part := by
  have degree : 0 ∉ q.degree.text := by cases q.degree <;> decide
  have mode : (0 : UInt8) ∉
      (if strict then "true" else "false" : Text) := by cases strict <;> decide
  simp only [keyParts, List.forall_mem_cons]
  exact ⟨source, target, context, degree, mode, by simp⟩

/-- The parts of a key tell source, target, context, degree and mode of reading. -/
theorem keyParts_inj (same : r.keyParts other = q.keyParts strict) :
    r.source = q.source ∧ r.target = q.target ∧
    r.context = q.context ∧ r.degree = q.degree ∧ other = strict := by
  simp only [keyParts, List.cons.injEq, and_true] at same
  obtain ⟨source, target, context, degree, mode⟩ := same
  refine ⟨source, target, context, ?_, ?_⟩
  · revert degree
    cases r.degree <;> cases q.degree <;> decide
  · revert mode
    cases other <;> cases strict <;> decide

/-- The bytes that are hashed for a list of parts determine the parts, among all lists of
as many parts, exactly when there is at most one part or none holds a zero byte. So the
bytes that are hashed for a request determine its source, target, context, degree and mode
of reading exactly when there is no zero byte in its source, its target or its context;
otherwise another request has the same key whatever the digest. -/
theorem framed_determines_iff (parts : List Text) (q : Request) (strict : Bool) :
    ((∀ others : List Text, others.length = parts.length → framed others = framed parts →
      others = parts) ↔
      parts.length ≤ 1 ∨ ∀ part ∈ parts, 0 ∉ part) ∧
    ((∀ (r : Request) (other : Bool), framed (r.keyParts other) = framed (q.keyParts strict) →
        r.source = q.source ∧ r.target = q.target ∧ r.context = q.context ∧
        r.degree = q.degree ∧ other = strict) ↔
      0 ∉ q.source ∧ 0 ∉ q.target ∧ 0 ∉ q.context) := by
  refine ⟨determined_iff parts, ?_, ?_⟩
  · intro determined
    refine ⟨?_, ?_, ?_⟩
    all_goals
      intro zero
      obtain ⟨start, rest, split⟩ := List.append_of_mem zero
    · have same := determined { q with source := start, target := rest ++ 0 :: q.target }
        strict (by
        simpa [keyParts, split] using framed_shift [] _ start rest q.target)
      simp [split] at same
    · have same := determined { q with source := q.source ++ 0 :: start, target := rest }
        strict (by
        simpa [keyParts, split] using (framed_shift [] _ q.source start rest).symm)
      simp at same
    · have same := determined { q with target := q.target ++ 0 :: start, context := rest }
        strict (by
        simpa [keyParts, split] using (framed_shift [q.source] _ q.target start rest).symm)
      simp at same
  · rintro ⟨source, target, context⟩ r other same
    exact keyParts_inj (determined_of_plain (plain_keyParts source target context) _ rfl same)

/-- The digest does not show in what is made. -/
theorem make_digest (q : Request) (options : RunOptions) (digest : Text → UInt64) :
    q.make { options with digest := digest } = q.make options := rfl

/-- A request is answered with what was made for another one when the same bytes are
hashed for both, whatever the digest. -/
theorem answered_again (digest : Text → UInt64) (firstAsked : q.canceled = false)
    (secondAsked : r.canceled = false)
    (sameBytes : framed (q.keyParts false) = framed (r.keyParts false))
    (succeeds : (q.make {}).2.failure = none) (made : (q.make {}).2.cached = false) :
    ((Runner.runAll ⟨{ digest := digest }, some (.ofCapacity 4)⟩ [q, r]).2.2.map
      fun response =>
        (response.output, response.cached)) =
      [((q.make {}).2.output, false), ((q.make {}).2.output, true)] := by
  have unseen : q.make { digest := digest } = q.make {} := q.make_digest {} digest
  have sameKey : q.key { digest := digest } = r.key { digest := digest } :=
    congrArg digest sameBytes
  have responses := Runner.runAll_again 4 firstAsked secondAsked sameKey
    (by rw [unseen, succeeds])
  rw [unseen] at responses
  simp only [responses, List.map_cons, List.map_nil, made]

/-- A document that ends in a comment, and a context in which zero bytes and the name of
the target stand before the word that is meant. -/
def afterthought : Request where
  source := "personality \"host\" \x7b \x7d //"
  file := []
  target := "prompt"
  context := Text.join [0] ["tea", "prompt", "coffee"]
  degree := .none

/-- The same bytes cut in another place: what stood in the context now belongs to
the comment. -/
def overheard : Request :=
  { afterthought with
    source := Text.join [0] [afterthought.source, "prompt", "tea"]
    context := "coffee" }

/-- The two requests differ in source and context and have different outputs, but the same
bytes are hashed for both, so that the second is answered with what was stored for the
first, whatever the digest. -/
theorem overheard_answered :
    (afterthought.source ≠ overheard.source ∧ afterthought.context ≠ overheard.context) ∧
    (afterthought.keyParts false).length = (overheard.keyParts false).length ∧
    framed (afterthought.keyParts false) = framed (overheard.keyParts false) ∧
    (∀ digest : Text → UInt64,
      ((Runner.runAll ⟨{ digest := digest }, some (.ofCapacity 4)⟩ [afterthought,
      overheard]).2.2.map
          fun response => (response.output, response.cached)) =
        [((afterthought.make {}).2.output, false), ((afterthought.make {}).2.output, true)]) ∧
    (overheard.make {}).2.failure = none ∧
      (overheard.make {}).2.output ≠ (afterthought.make {}).2.output := by
  have sameBytes : framed (afterthought.keyParts false) =
      framed (overheard.keyParts false) := by
    decide +kernel
  refine ⟨by
    decide +kernel, by
      decide +kernel, sameBytes, fun digest => ?_, by decide +kernel, by decide +kernel⟩
  exact answered_again digest (by decide +kernel) (by decide +kernel) sameBytes
    (by decide +kernel) (by decide +kernel)

end Request

end Persona
