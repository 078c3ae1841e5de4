import Persona.Proofs.Grammar.Phrases

/-!
# Nesting in phrases

Skipping an entry counts braces and parentheses together, and an unopened parenthesis
does not count. This module follows that count through a list of kinds: where it goes,
and where skipping would stop because it meets a semicolon or a closing brace at depth
zero.

Phrases of the grammar never stop it. Whatever the depth in front of an entry is, it is
the same behind it, and no semicolon or brace in between is at that depth.
-/

namespace Persona.Grammar

open Spelling (fixed word quoted call)

/-- The depth after a token, counted as skipping does; none where the enclosing
list closes. -/
def deepen (depth : Nat) : Kind → Option Nat
  | .braceOpen | .parenOpen => some (depth + 1)
  | .parenClose => some (depth - 1)
  | .braceClose => if depth = 0 then none else some (depth - 1)
  | _ => some depth

/-- The depth after a token that skipping passes; none also at the semicolon
it looks for. -/
def pass (depth : Nat) (kind : Kind) : Option Nat :=
  if depth = 0 ∧ kind = .semicolon then none else deepen depth kind

/-- The depth after kinds that are all passed. -/
def passes (depth : Nat) (kinds : List Kind) : Option Nat := kinds.foldlM pass depth

/-- Nothing is passed where there is nothing. -/
@[simp] theorem passes_nil (depth : Nat) : passes depth [] = some depth := rfl

/-- The first kind is passed, then the others. -/
@[simp] theorem passes_cons (depth : Nat) (kind : Kind) (kinds : List Kind) :
    passes depth (kind :: kinds) = (pass depth kind).bind fun d => passes d kinds := by
  simp [passes]

/-- Kinds are passed one part after the other. -/
@[simp] theorem passes_append (depth : Nat) (first second : List Kind) :
    passes depth (first ++ second) = (passes depth first).bind fun d => passes d second := by
  simp [passes]

/-- A kind that neither nests nor separates. -/
def isFlat (kind : Kind) : Bool :=
  kind ≠ .braceOpen && kind ≠ .braceClose && kind ≠ .parenOpen && kind ≠ .parenClose &&
    kind ≠ .semicolon

/-- The depth does not change at a flat kind. -/
theorem pass_flat {kind : Kind} (flat : isFlat kind = true) (depth : Nat) :
    pass depth kind = some depth := by
  cases kind <;> first | rfl | (simp [pass, deepen]; done) | exact absurd flat (by decide)

/-- Whatever the depth in front of the symbols is, they are passed and it is the same
behind them. -/
def Balanced (symbols : List Spelling) : Prop :=
  ∀ depth, passes depth (symbols.map Prod.fst) = some depth

/-- Nothing is balanced. -/
theorem Balanced.nil : Balanced [] := fun _ => rfl

/-- Two balanced parts are balanced together. -/
theorem Balanced.append {e f : List Spelling} (first : Balanced e) (second : Balanced f) :
    Balanced (e ++ f) := by
  intro depth
  rw [List.map_append, passes_append, first depth]
  exact second depth

/-- A flat symbol goes in front. -/
theorem Balanced.cons {s : Spelling} {e : List Spelling} (flat : isFlat s.1 = true)
    (rest : Balanced e) :
    Balanced (s :: e) := by
  intro depth
  rw [List.map_cons, passes_cons, pass_flat flat]
  exact rest depth

/-- What is balanced is so between parentheses. -/
theorem Balanced.inParens {e : List Spelling} (inner : Balanced e) :
    Balanced (fixed .parenOpen :: (e ++ [fixed .parenClose])) := by
  intro depth
  simp [fixed, pass, deepen, inner (depth + 1)]

/-- Arguments that are balanced make a balanced call. -/
theorem Balanced.call {s : Spelling} {e : List Spelling} (flat : isFlat s.1 = true)
    (inner : Balanced e) :
    Balanced (call s e) :=
  .cons flat inner.inParens

/-- What is balanced is so between braces, with and without a semicolon behind it. -/
theorem Balanced.braced {e : List Spelling} (inner : Balanced e) :
    Balanced (braced e) ∧ Balanced (braced (e ++ [fixed .semicolon])) := by
  constructor <;> intro depth <;> simp [Grammar.braced, fixed, pass, deepen, inner (depth + 1)]

/-- A name is flat. -/
theorem NamePhrase.flat {n : Spelling} {text : Text} (named : NamePhrase n text) :
    isFlat n.1 = true := by
  cases named with
  | word | string => rfl
  | @keyword kind listed =>
    revert listed
    cases kind <;> simp [Kind.keywords, fixed, isFlat]

/-- An operator is flat. -/
theorem isFlat_rankOf {kind : Kind} {rank : Rank} (makes : rankOf kind = some rank) :
    isFlat kind = true := by
  cases kind <;> first | rfl | cases makes

/-- An expression is balanced. -/
theorem Folds.balanced {rank : Rank} {e : List Spelling} {value : Binary64}
    (folds : Folds rank e value) :
    Balanced e := by
  induction folds with
  | literal => exact .cons rfl .nil
  | negative _ inner => exact .cons rfl inner
  | group _ inner => exact inner.inParens
  | factor _ inner | product _ inner => exact inner
  | operation makes _ _ _ left right => exact left.append (.cons (isFlat_rankOf makes) right)

/-- A number is balanced. -/
theorem balanced_number {e : List Spelling} {value : Binary64}
    (phrase : NumberPhrase e value) : Balanced e :=
  phrase.folds.balanced

/-- A count is balanced. -/
theorem balanced_count {e : List Spelling} {n : Int} (phrase : CountPhrase e n) :
    Balanced e := by
  obtain ⟨number, -⟩ := phrase
  exact balanced_number number

/-- A circumstance is balanced. -/
theorem ContextPhrase.balanced {e : List Spelling} {c : Context}
    (phrase : ContextPhrase e c) : Balanced e := by
  cases phrase with
  | string => exact .cons rfl .nil
  | topic | situation | time | mood | emotion => exact .cons rfl (.cons rfl (.cons rfl .nil))

/-- A modifier is balanced. -/
theorem ModifierPhrase.balanced {e : List Spelling} {m : Modifier}
    (phrase : ModifierPhrase e m) : Balanced e := by
  cases phrase with
  | decay rated timed =>
    obtain ⟨-⟩ := timed
    exact .call rfl ((balanced_number rated).append (.cons rfl (.cons rfl .nil)))
  | «when» inner | «unless» inner => exact .call rfl inner.balanced
  | amplifies named scaled =>
    exact .call rfl (.cons named.flat (.cons rfl (balanced_number scaled)))
  | transformsTo named scaled counted =>
    exact .call rfl (.cons named.flat
      (.cons rfl ((balanced_number scaled).append (.cons rfl (balanced_count counted)))))

/-- Modifiers are balanced. -/
theorem ModifiersPhrase.balanced {e : List Spelling} {ms : List Modifier}
    (phrase : ModifiersPhrase e ms) :
    Balanced e := by
  induction phrase with
  | one first => exact first.balanced
  | more first _ others => exact first.balanced.append (.cons rfl others)

/-- A trait is balanced. -/
theorem TraitPhrase.balanced {e : List Spelling} {t : Trait} (phrase : TraitPhrase e t) :
    Balanced e := by
  cases phrase with
  | plain named weighed => exact .cons named.flat (.cons rfl (balanced_number weighed))
  | modified named weighed changed =>
    exact .cons named.flat
      (.cons rfl ((balanced_number weighed).append (.cons rfl changed.balanced)))

/-- The weight of a connection is balanced. -/
theorem WeightPhrase.balanced {e : List Spelling} {strength : Binary64}
    {rate : Option Binary64} (phrase : WeightPhrase e strength rate) : Balanced e := by
  cases phrase with
  | constant weighed => exact balanced_number weighed
  | evolving weighed rated =>
    exact (balanced_number weighed).append (.cons rfl (balanced_number rated))

/-- Connections are balanced. -/
theorem ConnectionPhrase.balanced {source : Text} {e : List Spelling} {cs : List Connection}
    (phrase : ConnectionPhrase source e cs) : Balanced e := by
  cases phrase with
  | forth named weighed | both named weighed =>
    exact .cons rfl (.call named.flat weighed.balanced)

/-- An entry of a domain is balanced. -/
theorem DomainEntryPhrase.balanced {owner : Text} {e : List Spelling} {entry : DomainEntry}
    (phrase : DomainEntryPhrase owner e entry) : Balanced e := by
  cases phrase with
  | topic named graded =>
    refine .cons named.flat (.cons rfl (.cons ?_ .nil))
    cases graded with
    | word | string => rfl
  | own leads => exact leads.balanced
  | foreign named leads => exact .cons named.flat leads.balanced

/-- A condition is balanced. -/
theorem ConditionPhrase.balanced {e : List Spelling} {c : Condition}
    (phrase : ConditionPhrase e c) :
    Balanced e := by
  cases phrase with
  | above named limited => exact .cons named.flat (.cons rfl (balanced_number limited))
  | string | tired | motivated | unknown => exact .cons rfl .nil
  | tiredCall | motivatedCall | unknownCall => exact .call rfl .nil
  | context | unknownCallOf => exact .call rfl (.cons rfl .nil)
  | time => exact .call rfl (.cons rfl (.cons rfl (.cons rfl .nil)))

/-- A string that may have parentheses around it is balanced. -/
theorem LooseStringPhrase.balanced {e : List Spelling} {value : Text}
    (phrase : LooseStringPhrase e value) :
    Balanced e := by
  cases phrase with
  | bare => exact .cons rfl .nil
  | enclosed => exact Balanced.inParens (e := [quoted value]) (.cons rfl .nil)

/-- An action is balanced. -/
theorem ActionPhrase.balanced {e : List Spelling} {a : Action} (phrase : ActionPhrase e a) :
    Balanced e := by
  cases phrase with
  | prefer wanted | seek wanted | avoid wanted => exact .cons rfl wanted.balanced
  | style _ named => exact .call rfl (.cons named.flat (.cons rfl (.cons rfl .nil)))

/-- A behavior rule is balanced. -/
theorem BehaviorPhrase.balanced {e : List Spelling} {r : BehaviorRule}
    (phrase : BehaviorPhrase e r) :
    Balanced e := by
  obtain ⟨holds, acts⟩ := phrase
  exact .cons rfl (holds.balanced.append (.cons rfl acts.balanced))

/-- A trigger is balanced. -/
theorem TriggerPhrase.balanced {e : List Spelling} {t : Trigger}
    (phrase : TriggerPhrase e t) : Balanced e := by
  cases phrase with
  | learns named => exact .call rfl (.cons named.flat .nil)
  | timeIn named counted timed =>
    obtain ⟨-⟩ := timed
    exact .call rfl (.cons named.flat
      (.cons rfl ((balanced_count counted).append (.cons rfl .nil))))
  | interactionsAbove counted => exact .cons rfl (.cons rfl (balanced_count counted))
  | interactions counted => exact .call rfl (balanced_count counted)
  | feedbackAbove scored => exact .cons rfl (.cons rfl (balanced_number scored))
  | feedback scored | unknown _ scored => exact .call rfl (balanced_number scored)

/-- An effect is balanced; the semicolon of an adopted rule is inside its braces. -/
theorem EffectPhrase.balanced {e : List Spelling} {changed : Effect}
    (phrase : EffectPhrase e changed) :
    Balanced e := by
  cases phrase with
  | increase named moved | decrease named moved =>
    exact .cons named.flat (.cons rfl (balanced_number moved))
  | arrow leaves enters weighed =>
    exact .cons leaves.flat (.cons rfl (.call enters.flat (balanced_number weighed)))
  | unlock named => exact .call rfl (.cons named.flat .nil)
  | connect leaves enters weighed =>
    exact .call rfl (.cons leaves.flat
      (.cons rfl (.cons enters.flat (.cons rfl (balanced_number weighed)))))
  | adopt behaves => exact .cons rfl behaves.balanced.braced.1
  | adoptSeparated behaves => exact .cons rfl behaves.balanced.braced.2

/-- An evolution rule is balanced. -/
theorem EvolutionPhrase.balanced {e : List Spelling} {r : EvolutionRule}
    (phrase : EvolutionPhrase e r) :
    Balanced e := by
  obtain ⟨sets, changes⟩ := phrase
  exact .cons rfl (sets.balanced.append (.cons rfl changes.balanced))

end Persona.Grammar
