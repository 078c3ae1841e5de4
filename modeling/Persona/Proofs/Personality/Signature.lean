import Mathlib.Data.List.Chain
import Persona.Proofs.Analysis.Sound
import Persona.Proofs.Personality.Cuts
import Persona.Proofs.Personality.Texts

/-!
# What a signature identifies

Texts stand bare in a signature, so a text that holds a comma with a blank, or an arrow,
can make a signature look like that of another value. Numbers, units and counts hold
neither, and a constructor is told by the word in front of its parenthesis. What is left
is to say where the marks between two texts and between two signatures are. A value is
the only one with its signature exactly if its marks can be found in one way only.
-/

namespace Persona

/-- No part is missing, no number is a NaN and every unit is one of the four. -/
structure Whole (complete : Prop) (numbers : List Binary64) (units : List TimeUnit) :
    Prop where
  complete : complete
  comparable : ∀ x ∈ numbers, x ≠ .nan
  listed : ∀ unit ∈ units, unit ∈ TimeUnit.all

/-- The unit of a modifier, if it has one. -/
def Modifier.units : Modifier → List TimeUnit
  | .decay _ unit => [unit]
  | .when _ | .unless _ | .amplifies _ _ | .transformsTo _ _ _ => []

/-- The unit of a trigger, if it has one. -/
def Trigger.units : Trigger → List TimeUnit
  | .timeIn _ unit _ => [unit]
  | .learns _ | .interactions _ | .feedback _ => []

/-- A whole modifier. -/
def Modifier.Whole (m : Modifier) : Prop := Persona.Whole m.Complete m.numbers m.units

/-- A whole condition. -/
def Condition.Whole (c : Condition) : Prop := Persona.Whole True c.numbers []

/-- A whole behavior rule. -/
def BehaviorRule.Whole (r : BehaviorRule) : Prop := Persona.Whole r.Complete r.numbers []

/-- A whole trigger. -/
def Trigger.Whole (t : Trigger) : Prop := Persona.Whole True t.numbers t.units

/-- A whole effect. -/
def Effect.Whole (e : Effect) : Prop := Persona.Whole e.Complete e.numbers []

/-- A whole evolution rule. -/
def EvolutionRule.Whole (r : EvolutionRule) : Prop :=
  Persona.Whole (r.trigger.isSome = true ∧ ∃ effect, r.effect = some effect ∧
    effect.Complete) r.numbers
    (r.trigger.toList.flatMap Trigger.units)

/-- The constructor of a context. -/
def Context.constructor : Context → Text
  | .topic _ => "Topic"
  | .situation _ => "Situation"
  | .timeOfDay _ => "TimeOfDay"
  | .mood _ => "EmotionalState"

/-- The head of the signature of a context is its constructor. -/
theorem Context.head_signature (c : Context) : head c.signature = c.constructor := by
  cases c <;> exact head_application (by decide) _

/-- A context is told by its signature. -/
theorem Context.identified (c : Context) : Identified (fun _ => True) Context.signature c := by
  intro other _ same
  have heads : other.constructor = c.constructor := by
    rw [← head_signature, same, head_signature]
  cases c with
  | topic value =>
    cases other with
    | topic value' => exact congrArg topic (application_inj.mp same)
    | _ => simp [constructor, Text.ofString, String.utf8EncodeChar] at heads
  | situation value =>
    cases other with
    | situation value' => exact congrArg situation (application_inj.mp same)
    | _ => simp [constructor, Text.ofString, String.utf8EncodeChar] at heads
  | timeOfDay value =>
    cases other with
    | timeOfDay value' => exact congrArg timeOfDay (application_inj.mp same)
    | _ => simp [constructor, Text.ofString, String.utf8EncodeChar] at heads
  | mood value =>
    cases other with
    | mood value' => exact congrArg mood (application_inj.mp same)
    | _ => simp [constructor, Text.ofString, String.utf8EncodeChar] at heads

/-- The constructor of a modifier. -/
def Modifier.constructor : Modifier → Text
  | .decay _ _ => "Decay"
  | .when _ => "When"
  | .unless _ => "Unless"
  | .amplifies _ _ => "Amplifies"
  | .transformsTo _ _ _ => "TransformsTo"

/-- The head of the signature of a modifier is its constructor. -/
theorem Modifier.head_signature (m : Modifier) : head m.signature = m.constructor := by
  cases m <;> exact head_application (by decide) _

/-- A circumstance that is there is told by its signature. -/
theorem Context.some_inj {c other : Option Context} (there : c.isSome = true)
    (otherThere : other.isSome = true) (same : optionalSignature Context.signature other =
      optionalSignature Context.signature c) : other = c := by
  obtain ⟨c, rfl⟩ := Option.isSome_iff_exists.mp there
  obtain ⟨other, rfl⟩ := Option.isSome_iff_exists.mp otherThere
  exact congrArg some (c.identified other trivial same)

/-- A whole modifier is told by its signature. -/
theorem Modifier.identified {m : Modifier} (whole : m.Whole) :
    Identified Modifier.Whole Modifier.signature m := by
  intro other otherWhole same
  have heads : other.constructor = m.constructor := by
    rw [← head_signature, same, head_signature]
  cases m with
  | decay rate unit =>
    cases other with
    | decay rate' unit' =>
      have listed := whole.listed unit List.mem_cons_self
      have listed' := otherWhole.listed unit' List.mem_cons_self
      obtain ⟨rates, units⟩ := last_of_two (TimeUnit.comma_notMem_text unit' listed')
        (TimeUnit.comma_notMem_text unit listed) same
      rw [Binary64.text_injective rates, TimeUnit.text_inj unit' listed' unit listed units]
    | _ => simp [constructor, Text.ofString, String.utf8EncodeChar] at heads
  | when context =>
    cases other with
    | when context' =>
      exact congrArg when (Context.some_inj whole.complete otherWhole.complete
        (application_inj.mp same))
    | _ => simp [constructor, Text.ofString, String.utf8EncodeChar] at heads
  | «unless» context =>
    cases other with
    | «unless» context' =>
      exact congrArg Modifier.unless (Context.some_inj whole.complete otherWhole.complete
        (application_inj.mp same))
    | _ => simp [constructor, Text.ofString, String.utf8EncodeChar] at heads
  | amplifies target factor =>
    cases other with
    | amplifies target' factor' =>
      obtain ⟨rfl, factors⟩ :=
        last_of_two factor'.comma_notMem_text factor.comma_notMem_text same
      rw [Binary64.text_injective factors]
    | _ => simp [constructor, Text.ofString, String.utf8EncodeChar] at heads
  | transformsTo target factor count =>
    cases other with
    | transformsTo target' factor' count' =>
      obtain ⟨before, counts⟩ := last_of_three (Text.comma_notMem_ofInt count')
        (Text.comma_notMem_ofInt count) same
      obtain ⟨rfl, factors⟩ :=
        last_of_two factor'.comma_notMem_text factor.comma_notMem_text before
      rw [Binary64.text_injective factors, Text.ofInt_injective counts]
    | _ => simp [constructor, Text.ofString, String.utf8EncodeChar] at heads

/-- The constructor of a trigger. -/
def Trigger.constructor : Trigger → Text
  | .learns _ => "Learns"
  | .timeIn _ _ _ => "TimeInDomain"
  | .interactions _ => "InteractionCount"
  | .feedback _ => "FeedbackScore"

/-- The head of the signature of a trigger is its constructor. -/
theorem Trigger.head_signature (t : Trigger) : head t.signature = t.constructor := by
  cases t <;> exact head_application (by decide) _

/-- A whole trigger is told by its signature. -/
theorem Trigger.identified {t : Trigger} (whole : t.Whole) :
    Identified Trigger.Whole Trigger.signature t := by
  intro other otherWhole same
  have heads : other.constructor = t.constructor := by
    rw [← head_signature, same, head_signature]
  cases t with
  | learns topic =>
    cases other with
    | learns topic' => exact congrArg learns (application_inj.mp same)
    | _ => simp [constructor, Text.ofString, String.utf8EncodeChar] at heads
  | timeIn domain unit count =>
    cases other with
    | timeIn domain' unit' count' =>
      have listed := whole.listed unit List.mem_cons_self
      have listed' := otherWhole.listed unit' List.mem_cons_self
      obtain ⟨before, counts⟩ := last_of_three (Text.comma_notMem_ofInt count')
        (Text.comma_notMem_ofInt count) same
      obtain ⟨rfl, units⟩ := last_of_two (TimeUnit.comma_notMem_text unit' listed')
        (TimeUnit.comma_notMem_text unit listed) before
      rw [TimeUnit.text_inj unit' listed' unit listed units, Text.ofInt_injective counts]
    | _ => simp [constructor, Text.ofString, String.utf8EncodeChar] at heads
  | interactions count =>
    cases other with
    | interactions count' =>
      exact congrArg interactions (Text.ofInt_injective (application_inj.mp same))
    | _ => simp [constructor, Text.ofString, String.utf8EncodeChar] at heads
  | feedback score =>
    cases other with
    | feedback score' =>
      exact congrArg feedback (Binary64.text_injective (application_inj.mp same))
    | _ => simp [constructor, Text.ofString, String.utf8EncodeChar] at heads

/-- The constructor of a condition. -/
def Condition.constructor : Condition → Text
  | .tired => "Tired"
  | .motivated => "Motivated"
  | .context _ => "ContextMatch"
  | .traitAbove _ _ => "TraitAbove"
  | .timeRange _ _ => "TimeRange"

/-- The head of the signature of a condition is its constructor. -/
theorem Condition.head_signature (c : Condition) : head c.signature = c.constructor := by
  cases c with
  | tired => decide
  | motivated => decide
  | _ => exact head_application (by decide) _

/-- The marks in the signature of a condition can be found in one way only. -/
def Condition.CutOnce : Condition → Prop
  | .timeRange start stop => ¬ Text.ofString ", " <:+: start ∧ ¬ Text.ofString ", " <:+: stop
  | .tired | .motivated | .context _ | .traitAbove _ _ => True

/-- A whole condition is told by its signature exactly if the marks in it can be found in
one way only. -/
theorem Condition.identified_iff {c : Condition} (whole : c.Whole) :
    Identified Condition.Whole Condition.signature c ↔ c.CutOnce := by
  have heads {other : Condition} (same : other.signature = c.signature) :
      other.constructor = c.constructor := by
    rw [← head_signature, same, head_signature]
  cases c with
  | tired =>
    refine iff_of_true (fun other _ same => ?_) trivial
    cases other with
    | tired => rfl
    | _ => simpa [constructor, Text.ofString, String.utf8EncodeChar] using heads same
  | motivated =>
    refine iff_of_true (fun other _ same => ?_) trivial
    cases other with
    | motivated => rfl
    | _ => simpa [constructor, Text.ofString, String.utf8EncodeChar] using heads same
  | context value =>
    refine iff_of_true (fun other _ same => ?_) trivial
    cases other with
    | context value' => exact congrArg context (application_inj.mp same)
    | _ => simpa [constructor, Text.ofString, String.utf8EncodeChar] using heads same
  | traitAbove trait threshold =>
    refine iff_of_true (fun other _ same => ?_) trivial
    cases other with
    | traitAbove trait' threshold' =>
      obtain ⟨rfl, thresholds⟩ :=
        last_of_two threshold'.comma_notMem_text threshold.comma_notMem_text same
      rw [Binary64.text_injective thresholds]
    | _ => simpa [constructor, Text.ofString, String.utf8EncodeChar] using heads same
  | timeRange start stop =>
    refine Iff.trans ⟨fun identified => ?_, fun cut other _ same => ?_⟩
      (cut_comma_iff start stop)
    · intro start' stop' same
      have shown : signature (.timeRange start' stop') = signature (.timeRange start stop) :=
        application_two_inj.mpr same
      exact timeRange.inj (identified _ ⟨trivial, List.forall_mem_nil _,
        List.forall_mem_nil _⟩ shown)
    · cases other with
      | timeRange start' stop' =>
        obtain ⟨rfl, rfl⟩ := cut start' stop' (application_two_inj.mp same)
        rfl
      | _ => simpa [constructor, Text.ofString, String.utf8EncodeChar] using heads same

/-- The constructor of an action. -/
def Action.constructor : Action → Text
  | .prefer _ => "Prefer"
  | .seek _ => "Seek"
  | .avoid _ => "Avoid"
  | .setStyle _ _ => "SetStyle"

/-- The head of the signature of an action is its constructor. -/
theorem Action.head_signature (a : Action) : head a.signature = a.constructor := by
  cases a <;> exact head_application (by decide) _

/-- The marks in the signature of an action can be found in one way only. -/
def Action.CutOnce : Action → Prop
  | .setStyle key value => ¬ Text.ofString ", " <:+: key ∧ ¬ Text.ofString ", " <:+: value
  | .prefer _ | .seek _ | .avoid _ => True

/-- An action is told by its signature exactly if the marks in it can be found in
one way only. -/
theorem Action.identified_iff (a : Action) : Identified (fun _ => True) Action.signature a ↔
    a.CutOnce := by
  have heads {other : Action} (same : other.signature = a.signature) :
      other.constructor = a.constructor := by
    rw [← head_signature, same, head_signature]
  cases a with
  | prefer value =>
    refine iff_of_true (fun other _ same => ?_) trivial
    cases other with
    | prefer value' => exact congrArg prefer (application_inj.mp same)
    | _ => simpa [constructor, Text.ofString, String.utf8EncodeChar] using heads same
  | seek value =>
    refine iff_of_true (fun other _ same => ?_) trivial
    cases other with
    | seek value' => exact congrArg seek (application_inj.mp same)
    | _ => simpa [constructor, Text.ofString, String.utf8EncodeChar] using heads same
  | avoid value =>
    refine iff_of_true (fun other _ same => ?_) trivial
    cases other with
    | avoid value' => exact congrArg avoid (application_inj.mp same)
    | _ => simpa [constructor, Text.ofString, String.utf8EncodeChar] using heads same
  | setStyle key value =>
    refine Iff.trans ⟨fun identified => ?_, fun cut other _ same => ?_⟩
      (cut_comma_iff key value)
    · intro key' value' same
      have shown : signature (.setStyle key' value') = signature (.setStyle key value) :=
        application_two_inj.mpr same
      exact setStyle.inj (identified _ trivial shown)
    · cases other with
      | setStyle key' value' =>
        obtain ⟨rfl, rfl⟩ := cut key' value' (application_two_inj.mp same)
        rfl
      | _ => simpa [constructor, Text.ofString, String.utf8EncodeChar] using heads same

/-- An arrow between blanks does not begin inside a text that does not end with the
tip of one. -/
theorem clear_arrow {b : UInt8} {z : Text} (shaft : b ≠ 32) (ends : z.getLast? ≠ some 62) :
    Clear [32, b, 62, 32] z := by
  intro part rest split some someRest begins behind
  match part, rest, split with
  | [_], [_, _, _], split => simp_all
  | [_, _], [_, _], split => simp_all
  | [_, _, _], [_], split =>
    -- The blank behind the tip may begin another arrow; then the text in front ends with
    -- a tip.
    obtain ⟨before, rfl⟩ := behind
    simp_all
  | [_, _, _, _], [], _ => exact someRest rfl
  | [], [_, _, _, _], _ => exact some rfl

/-- An application ends with its parenthesis. -/
theorem getLast?_application (constructor : Text) (arguments : List Text) :
    (application constructor arguments).getLast? = some 41 := by
  simp [application, show Text.ofString ")" = [41] from rfl]

/-- No arrow begins inside the signature of a condition and ends behind it. -/
theorem Condition.clear_signature (c : Condition) : Clear " -> " c.signature := by
  refine clear_arrow (by decide) ?_
  cases c with
  | tired => decide
  | motivated => decide
  | _ => exact ne_of_eq_of_ne (getLast?_application _ _) (by decide)

/-- The marks in the signature of a rule can be found in one way only. -/
def BehaviorRule.CutOnce (r : BehaviorRule) : Prop :=
  ∀ c ∈ r.condition, ∀ a ∈ r.action, c.CutOnce ∧ a.CutOnce ∧
    ¬ Forks " -> " (Shown Condition.Whole Condition.signature)
      (Shown (fun _ => True) Action.signature)
      c.signature a.signature

/-- A behavior rule is shown with an arrow between its parts. -/
theorem BehaviorRule.shownAsPairs :
    ShownAsPairs " -> " Condition.Whole Condition.signature (fun _ : Action => True)
    Action.signature BehaviorRule.Whole BehaviorRule.signature fun c a =>
      ⟨some c, some a⟩ where
  injective := by simp
  parts := by
    rintro ⟨condition, action⟩ whole
    obtain ⟨c, rfl⟩ := Option.isSome_iff_exists.mp whole.complete.1
    obtain ⟨a, rfl⟩ := Option.isSome_iff_exists.mp whole.complete.2
    exact ⟨c, a, rfl⟩
  whole_iff := by
    intro c a
    constructor
    · exact fun whole =>
        ⟨⟨trivial, by simpa [numbers] using whole.comparable, List.forall_mem_nil _⟩, trivial⟩
    · exact fun ⟨whole, _⟩ =>
        ⟨⟨rfl, rfl⟩, by simpa [numbers] using whole.comparable, List.forall_mem_nil _⟩
  shown := by simp [signature, optionalSignature]

/-- A whole behavior rule is told by its signature exactly if the marks in it can be found
in one way only. -/
theorem BehaviorRule.identified_iff {r : BehaviorRule} (whole : r.Whole) :
    Identified BehaviorRule.Whole BehaviorRule.signature r ↔ r.CutOnce := by
  obtain ⟨c, a, rfl⟩ := shownAsPairs.parts r whole
  rw [shownAsPairs.identified_iff (by decide) Condition.clear_signature whole,
    Condition.identified_iff (shownAsPairs.whole_iff.mp whole).1, Action.identified_iff]
  simp [CutOnce]

/-- The constructor of an effect. -/
def Effect.constructor : Effect → Text
  | .adjust _ _ => "TraitAdjust"
  | .unlock _ => "UnlockDomain"
  | .connect _ _ _ => "AddConnection"
  | .adopt _ => "NewBehavior"

/-- The head of the signature of an effect is its constructor. -/
theorem Effect.head_signature (e : Effect) : head e.signature = e.constructor := by
  cases e <;> exact head_application (by decide) _

/-- The marks in the signature of an effect can be found in one way only. -/
def Effect.CutOnce : Effect → Prop
  | .adjust _ _ | .unlock _ => True
  | .connect source target _ =>
    ¬ Text.ofString ", " <:+: source ∧ ¬ Text.ofString ", " <:+: target
  | .adopt rule => rule.CutOnce

/-- A rule is adopted as a whole if it is whole. -/
theorem Effect.whole_adopt_iff {r : BehaviorRule} : (Effect.adopt r).Whole ↔ r.Whole :=
  ⟨fun whole => ⟨whole.complete, whole.comparable, List.forall_mem_nil _⟩, fun whole =>
    ⟨whole.complete, whole.comparable, List.forall_mem_nil _⟩⟩

/-- A whole effect is told by its signature exactly if the marks in it can be found in
one way only. -/
theorem Effect.identified_iff {e : Effect} (whole : e.Whole) :
    Identified Effect.Whole Effect.signature e ↔ e.CutOnce := by
  have heads {other : Effect} (same : other.signature = e.signature) :
      other.constructor = e.constructor := by
    rw [← head_signature, same, head_signature]
  cases e with
  | adjust trait delta =>
    refine iff_of_true (fun other _ same => ?_) trivial
    cases other with
    | adjust trait' delta' =>
      obtain ⟨rfl, deltas⟩ := last_of_two delta'.comma_notMem_text delta.comma_notMem_text same
      rw [Binary64.text_injective deltas]
    | _ => simpa [constructor, Text.ofString, String.utf8EncodeChar] using heads same
  | unlock domain =>
    refine iff_of_true (fun other _ same => ?_) trivial
    cases other with
    | unlock domain' => exact congrArg unlock (application_inj.mp same)
    | _ => simpa [constructor, Text.ofString, String.utf8EncodeChar] using heads same
  | connect source target strength =>
    refine Iff.trans ⟨fun identified => ?_, fun cut other _ same => ?_⟩
      (cut_comma_iff source target)
    · intro source' target' same
      have shown : signature (.connect source' target' strength) =
          signature (.connect source target strength) :=
        application_inj.mpr (by
          simpa [Text.join] using congrArg (· ++ (Text.ofString ", " ++ strength.text)) same)
      have fits : (Effect.connect source' target' strength).Whole :=
        ⟨trivial, whole.comparable, List.forall_mem_nil _⟩
      obtain ⟨sources, targets, -⟩ := connect.inj (identified _ fits shown)
      exact ⟨sources, targets⟩
    · cases other with
      | connect source' target' strength' =>
        obtain ⟨ends, strengths⟩ :=
          last_of_three strength'.comma_notMem_text strength.comma_notMem_text same
        obtain ⟨rfl, rfl⟩ := cut source' target' (application_two_inj.mp ends)
        rw [Binary64.text_injective strengths]
      | _ => simpa [constructor, Text.ofString, String.utf8EncodeChar] using heads same
  | adopt rule =>
    refine Iff.trans ⟨fun identified => ?_, fun identified other otherWhole same => ?_⟩
      (BehaviorRule.identified_iff (whole_adopt_iff.mp whole))
    · intro other otherWhole same
      have shown : signature (.adopt other) = signature (.adopt rule) :=
        application_inj.mpr same
      exact adopt.inj (identified _ (whole_adopt_iff.mpr otherWhole) shown)
    · cases other with
      | adopt rule' =>
        exact congrArg adopt (identified rule' (whole_adopt_iff.mp otherWhole)
          (application_inj.mp same))
      | _ => simpa [constructor, Text.ofString, String.utf8EncodeChar] using heads same

/-- No arrow begins inside the signature of a trigger and ends behind it. -/
theorem Trigger.clear_signature (t : Trigger) : Clear " => " t.signature := by
  refine clear_arrow (by decide) ?_
  cases t <;> exact ne_of_eq_of_ne (getLast?_application _ _) (by decide)

/-- The marks in the signature of a rule can be found in one way only. -/
def EvolutionRule.CutOnce (r : EvolutionRule) : Prop :=
  ∀ t ∈ r.trigger, ∀ e ∈ r.effect, e.CutOnce ∧
    ¬ Forks " => " (Shown Trigger.Whole Trigger.signature)
      (Shown Effect.Whole Effect.signature)
      t.signature e.signature

/-- An evolution rule is shown with an arrow between its parts. -/
theorem EvolutionRule.shownAsPairs :
    ShownAsPairs " => " Trigger.Whole Trigger.signature Effect.Whole
    Effect.signature EvolutionRule.Whole EvolutionRule.signature fun t e =>
      ⟨some t, some e⟩ where
  injective := by simp
  parts := by
    rintro ⟨trigger, effect⟩ whole
    obtain ⟨t, rfl⟩ := Option.isSome_iff_exists.mp whole.complete.1
    obtain ⟨e, rfl, -⟩ := whole.complete.2
    exact ⟨t, e, rfl⟩
  whole_iff := by
    intro t e
    constructor
    · rintro ⟨complete, comparable, listed⟩
      obtain ⟨_, ⟨⟩, effectComplete⟩ := complete.2
      refine ⟨⟨trivial, fun x member => comparable x ?_, by simpa using listed⟩,
        effectComplete, fun x member => comparable x ?_, List.forall_mem_nil _⟩
      · simp [numbers, member]
      · simp [numbers, member]
    · rintro ⟨trigger, effect⟩
      refine ⟨⟨rfl, e, rfl, effect.complete⟩, ?_, by simpa using trigger.listed⟩
      intro x member
      rcases List.mem_append.mp member with inTrigger | inEffect
      · exact trigger.comparable x (by simpa using inTrigger)
      · exact effect.comparable x (by simpa using inEffect)
  shown := by simp [signature, optionalSignature]

/-- A whole evolution rule is told by its signature exactly if the marks in it can be
found in one way only. -/
theorem EvolutionRule.identified_iff {r : EvolutionRule} (whole : r.Whole) :
    Identified EvolutionRule.Whole EvolutionRule.signature r ↔ r.CutOnce := by
  obtain ⟨t, e, rfl⟩ := shownAsPairs.parts r whole
  obtain ⟨triggerWhole, effectWhole⟩ := shownAsPairs.whole_iff.mp whole
  rw [shownAsPairs.identified_iff (by decide) Trigger.clear_signature whole,
    Effect.identified_iff effectWhole]
  simp [CutOnce, Trigger.identified triggerWhole]

/-- The text holds none of the marks that signatures put between their parts. -/
def Text.Unmarked (text : Text) : Prop :=
  ¬ Text.ofString ", " <:+: text ∧ ¬ Text.ofString "->" <:+: text ∧
    ¬ Text.ofString "=>" <:+: text

instance : DecidablePred Text.Unmarked :=
  fun text => inferInstanceAs (Decidable (¬ Text.ofString ", " <:+: text ∧
    ¬ Text.ofString "->" <:+: text ∧
    ¬ Text.ofString "=>" <:+: text))

/-- Nowhere in the text does the tip of an arrow follow the shaft. -/
def Arrowless (shaft : UInt8) (text : Text) : Prop := ¬ [shaft, 62] <:+: text

section Arrows

variable {shaft : UInt8} {u v : Text}

/-- Arrows are looked for in neighbours. -/
theorem arrowless_iff : Arrowless shaft u ↔ u.IsChain fun a b => ¬ (a = shaft ∧ b = 62) := by
  unfold Arrowless
  induction u with
  | nil => simp
  | cons a rest inductionHypothesis =>
    rw [List.infix_cons_iff, not_or, inductionHypothesis, List.isChain_cons]
    refine and_congr_left fun _ => ?_
    cases rest with
    | nil => simp
    | cons b rest => simp [eq_comm]

/-- There is no arrow without a tip. -/
theorem arrowless_of_notMem (none : 62 ∉ u) : Arrowless shaft u := by
  intro found
  exact none (found.subset (by simp))

/-- An arrow is not made by putting texts side by side, unless one ends with the shaft. -/
theorem Arrowless.append (first : Arrowless shaft u) (second : Arrowless shaft v)
    (apart : v.head? ≠ some 62 ∨ u.getLast? ≠ some shaft) : Arrowless shaft (u ++ v) := by
  rw [arrowless_iff] at first second ⊢
  refine List.isChain_append.mpr ⟨first, second, ?_⟩
  rintro a last b next ⟨rfl, rfl⟩
  rcases apart with noTip | noShaft
  · exact noTip next
  · exact noShaft last

/-- Arguments without arrows are joined without one. -/
theorem arrowless_join (blank : shaft ≠ 32) {arguments : List Text}
    (each : ∀ text ∈ arguments, Arrowless shaft text) :
    Arrowless shaft (Text.join ", " arguments) := by
  induction arguments with
  | nil => exact arrowless_of_notMem (by simp [Text.join])
  | cons argument rest inductionHypothesis =>
    obtain ⟨first, others⟩ := List.forall_mem_cons.mp each
    cases rest with
    | nil => exact first
    | cons next rest =>
      have comma : Arrowless shaft (Text.ofString ", ") := arrowless_of_notMem (by decide)
      refine (first.append comma (.inl (by decide))).append (inductionHypothesis others)
        (.inr ?_)
      simpa [show Text.ofString ", " = [44, 32] from rfl] using blank.symm

/-- An application to arguments without arrows has none. -/
theorem arrowless_application (blank : shaft ≠ 32) (bracket : shaft ≠ 40) {constructor : Text}
    (plain : 62 ∉ constructor) {arguments : List Text}
    (each : ∀ text ∈ arguments, Arrowless shaft text) :
    Arrowless shaft (application constructor arguments) := by
  have start : Arrowless shaft (constructor ++ Text.ofString "(") :=
    arrowless_of_notMem (by simpa [show Text.ofString "(" = [40] from rfl] using plain)
  have stop : Arrowless shaft (Text.ofString ")") := arrowless_of_notMem (by decide)
  refine (start.append (arrowless_join blank each) (.inr ?_)).append stop (.inl (by decide))
  simpa [show Text.ofString "(" = [40] from rfl] using bracket.symm

/-- There is no arrow in a number. -/
theorem Binary64.arrowless_text (x : Binary64) : Arrowless shaft x.text :=
  arrowless_of_notMem fun member =>
    absurd ((Layout.write_numeric Layout.plain x).1 62 member) (by decide)

/-- There is no arrow in an integer. -/
theorem Text.arrowless_ofInt (n : Int) : Arrowless shaft (ofInt n) :=
  arrowless_of_notMem fun member => absurd (ofInt_bytes n 62 member) (by decide)

/-- There is no arrow in a unit. -/
theorem TimeUnit.arrowless_text (unit : TimeUnit) : Arrowless shaft unit.text := by
  cases unit with
  | unlisted code => exact arrowless_of_notMem (show 62 ∉ Text.ofString "(unknown)" by decide)
  | _ => exact arrowless_of_notMem (by decide)

variable (blank : shaft ≠ 32) (bracket : shaft ≠ 40)

include blank bracket

/-- A condition whose texts hold no arrow has none in its signature. -/
theorem Condition.arrowless_signature {c : Condition}
    (each : ∀ text ∈ c.texts, Arrowless shaft text) :
    Arrowless shaft c.signature := by
  cases c with
  | tired => exact arrowless_of_notMem (by decide)
  | motivated => exact arrowless_of_notMem (by decide)
  | traitAbove trait threshold =>
    exact arrowless_application blank bracket (by decide)
      (by simpa [texts, Binary64.arrowless_text] using each)
  | _ => exact arrowless_application blank bracket (by decide) each

/-- An action whose texts hold no arrow has none in its signature. -/
theorem Action.arrowless_signature {a : Action}
    (each : ∀ text ∈ a.texts, Arrowless shaft text) :
    Arrowless shaft a.signature := by
  cases a <;> exact arrowless_application blank bracket (by decide) each

/-- A trigger whose texts hold no arrow has none in its signature. -/
theorem Trigger.arrowless_signature {t : Trigger}
    (each : ∀ text ∈ t.texts, Arrowless shaft text) :
    Arrowless shaft t.signature := by
  cases t with
  | learns topic => exact arrowless_application blank bracket (by decide) each
  | timeIn domain unit count =>
    exact arrowless_application blank bracket (by decide)
      (by simpa [texts, TimeUnit.arrowless_text, Text.arrowless_ofInt] using each)
  | interactions count =>
    exact arrowless_application blank bracket (by decide) (by simp [Text.arrowless_ofInt])
  | feedback score =>
    exact arrowless_application blank bracket (by decide) (by simp [Binary64.arrowless_text])

/-- An effect whose texts hold no double arrow has none in its signature, not even around
the arrow of a rule. -/
theorem Effect.arrowless_signature {e : Effect} (whole : e.Whole) (other : shaft ≠ 45)
    (each : ∀ text ∈ e.texts, Arrowless shaft text) : Arrowless shaft e.signature := by
  cases e with
  | adjust trait delta =>
    exact arrowless_application blank bracket (by decide)
      (by simpa [texts, Binary64.arrowless_text] using each)
  | unlock domain => exact arrowless_application blank bracket (by decide) each
  | connect source target strength =>
    exact arrowless_application blank bracket (by decide)
      (by simpa [texts, Binary64.arrowless_text] using each)
  | adopt rule =>
    obtain ⟨c, a, rfl⟩ := BehaviorRule.shownAsPairs.parts rule (whole_adopt_iff.mp whole)
    have both : ∀ text ∈ c.texts ++ a.texts, Arrowless shaft text := by
      simpa [texts, BehaviorRule.texts] using each
    obtain ⟨conditionTexts, actionTexts⟩ := List.forall_mem_append.mp both
    have first := Condition.arrowless_signature blank bracket conditionTexts
    have second := Action.arrowless_signature blank bracket actionTexts
    have arrow : Arrowless shaft (Text.ofString " -> ") := by
      rw [arrowless_iff, show Text.ofString " -> " = [32, 45, 62, 32] from rfl]
      simp [other.symm, blank.symm]
    refine arrowless_application blank bracket (by decide) (List.forall_mem_singleton.mpr ?_)
    rw [BehaviorRule.shownAsPairs.shown]
    refine first.append (arrow.append second (.inr ?_)) (.inl ?_)
    · simpa [show Text.ofString " -> " = [32, 45, 62, 32] from rfl] using blank.symm
    · simp [show Text.ofString " -> " = [32, 45, 62, 32] from rfl]

end Arrows

/-- Without arrows in the parts the mark between them can be found in one way only. -/
theorem not_forks {shaft : UInt8} {left right : Text → Prop} {before after : Text}
    (first : Arrowless shaft before) (second : Arrowless shaft after) :
    ¬ Forks [32, shaft, 62, 32] left right before after := by
  rintro (⟨start, rest, rfl, -, -⟩ | ⟨start, rest, rfl, -, -⟩)
  · exact first ⟨start ++ [32], 32 :: rest, by simp⟩
  · exact second ⟨start ++ [32], 32 :: rest, by simp⟩

/-- A condition whose texts hold no mark can be cut in one way only. -/
theorem Condition.cutOnce_of_unmarked {c : Condition}
    (each : ∀ text ∈ c.texts, text.Unmarked) : c.CutOnce := by
  cases c with
  | timeRange start stop =>
    exact ⟨(each start (by simp [texts])).1, (each stop (by simp [texts])).1⟩
  | _ => trivial

/-- An action whose texts hold no mark can be cut in one way only. -/
theorem Action.cutOnce_of_unmarked {a : Action} (each : ∀ text ∈ a.texts, text.Unmarked) :
    a.CutOnce := by
  cases a with
  | setStyle key value =>
    exact ⟨(each key (by simp [texts])).1, (each value (by simp [texts])).1⟩
  | _ => trivial

/-- A behavior rule whose texts hold no mark can be cut in one way only. -/
theorem BehaviorRule.cutOnce_of_unmarked {r : BehaviorRule}
    (each : ∀ text ∈ r.texts, text.Unmarked) : r.CutOnce := by
  obtain ⟨condition, action⟩ := r
  rintro c ⟨rfl⟩ a ⟨rfl⟩
  have both : ∀ text ∈ c.texts ++ a.texts, text.Unmarked := by simpa [texts] using each
  obtain ⟨first, second⟩ := List.forall_mem_append.mp both
  refine ⟨Condition.cutOnce_of_unmarked first, Action.cutOnce_of_unmarked second,
    not_forks ?_ ?_⟩
  · exact Condition.arrowless_signature (by decide) (by decide) fun text member =>
      (first text member).2.1
  · exact Action.arrowless_signature (by decide) (by decide) fun text member =>
      (second text member).2.1

/-- An effect whose texts hold no mark can be cut in one way only. -/
theorem Effect.cutOnce_of_unmarked {e : Effect} (each : ∀ text ∈ e.texts, text.Unmarked) :
    e.CutOnce := by
  cases e with
  | connect source target strength =>
    exact ⟨(each source (by simp [texts])).1, (each target (by simp [texts])).1⟩
  | adopt rule => exact BehaviorRule.cutOnce_of_unmarked each
  | _ => trivial

/-- An evolution rule whose texts hold no mark can be cut in one way only. -/
theorem EvolutionRule.cutOnce_of_unmarked {r : EvolutionRule} (whole : r.Whole)
    (each : ∀ text ∈ r.texts, text.Unmarked) : r.CutOnce := by
  obtain ⟨trigger, effect⟩ := r
  rintro t ⟨rfl⟩ e ⟨rfl⟩
  have both : ∀ text ∈ t.texts ++ e.texts, text.Unmarked := by simpa [texts] using each
  obtain ⟨first, second⟩ := List.forall_mem_append.mp both
  have effectWhole := (shownAsPairs.whole_iff.mp whole).2
  refine ⟨Effect.cutOnce_of_unmarked second, not_forks ?_ ?_⟩
  · exact Trigger.arrowless_signature (by decide) (by decide) fun text member =>
      (first text member).2.2
  · exact Effect.arrowless_signature (by decide) (by decide) effectWhole (by decide)
      fun text member => (second text member).2.2

/-- A value that has a signature. -/
inductive Variant where
  | context (value : Context)
  | modifier (value : Modifier)
  | trigger (value : Trigger)
  | condition (value : Condition)
  | action (value : Action)
  | behavior (rule : BehaviorRule)
  | effect (value : Effect)
  | evolution (rule : EvolutionRule)

namespace Variant

/-- No part is missing, no number is a NaN and every unit is one of the four. -/
def Whole : Variant → Prop
  | .context _ | .action _ => True
  | .modifier value => value.Whole
  | .trigger value => value.Whole
  | .condition value => value.Whole
  | .behavior rule => rule.Whole
  | .effect value => value.Whole
  | .evolution rule => rule.Whole

/-- The texts of a value. -/
def texts : Variant → List Text
  | .context value => value.texts
  | .modifier value => value.texts
  | .trigger value => value.texts
  | .condition value => value.texts
  | .action value => value.texts
  | .behavior rule => rule.texts
  | .effect value => value.texts
  | .evolution rule => rule.texts

/-- Among the whole values of its type, the value is the only one with its signature. -/
def Identified : Variant → Prop
  | .context value => Persona.Identified (fun _ => True) Context.signature value
  | .modifier value => Persona.Identified Modifier.Whole Modifier.signature value
  | .trigger value => Persona.Identified Trigger.Whole Trigger.signature value
  | .condition value => Persona.Identified Condition.Whole Condition.signature value
  | .action value => Persona.Identified (fun _ => True) Action.signature value
  | .behavior rule => Persona.Identified BehaviorRule.Whole BehaviorRule.signature rule
  | .effect value => Persona.Identified Effect.Whole Effect.signature value
  | .evolution rule => Persona.Identified EvolutionRule.Whole EvolutionRule.signature rule

/-- The marks in the signature of a value can be found in one way only. -/
def CutOnce : Variant → Prop
  | .context _ | .modifier _ | .trigger _ => True
  | .condition value => value.CutOnce
  | .action value => value.CutOnce
  | .behavior rule => rule.CutOnce
  | .effect value => value.CutOnce
  | .evolution rule => rule.CutOnce

/-- A whole value is told by its signature exactly if the marks in it can be found in
one way only. -/
theorem identified_iff {v : Variant} (whole : v.Whole) : v.Identified ↔ v.CutOnce := by
  cases v with
  | context value => exact iff_of_true value.identified trivial
  | modifier value => exact iff_of_true (Modifier.identified whole) trivial
  | trigger value => exact iff_of_true (Trigger.identified whole) trivial
  | condition value => exact Condition.identified_iff whole
  | action value => exact value.identified_iff
  | behavior rule => exact BehaviorRule.identified_iff whole
  | effect value => exact Effect.identified_iff whole
  | evolution rule => exact EvolutionRule.identified_iff whole

/-- A value whose texts hold no mark can be cut in one way only. -/
theorem cutOnce_of_unmarked {v : Variant} (whole : v.Whole)
    (each : ∀ text ∈ v.texts, text.Unmarked) : v.CutOnce := by
  cases v with
  | context value => trivial
  | modifier value => trivial
  | trigger value => trivial
  | condition value => exact Condition.cutOnce_of_unmarked each
  | action value => exact Action.cutOnce_of_unmarked each
  | behavior rule => exact BehaviorRule.cutOnce_of_unmarked each
  | effect value => exact Effect.cutOnce_of_unmarked each
  | evolution rule => exact EvolutionRule.cutOnce_of_unmarked whole each

end Variant

/-- Contexts, modifiers and triggers are always told by their signatures. Any other value
is exactly if the marks in its signature can be found in one way only: no comma with a
blank in one of two neighbouring texts, and no second arrow at which the signature of a
rule falls into those of two parts. So a value is told by its signature whenever its texts
hold no mark. -/
theorem signature_identifies {v : Variant} (whole : v.Whole) :
    (v.Identified ↔ v.CutOnce) ∧ ((∀ text ∈ v.texts, text.Unmarked) → v.Identified) := by
  have exactly := Variant.identified_iff whole
  exact ⟨exactly, fun unmarked => exactly.mpr (Variant.cutOnce_of_unmarked whole unmarked)⟩

/-- A rule whose texts are full of the bytes of marks, though never with a whole mark. -/
def EvolutionRule.bristling : EvolutionRule where
  trigger := some (.timeIn "sky) = > UnlockDomain(sea" .week (-2))
  effect :=
    some (.adopt ⟨some (.timeRange "9,10" ")- > Avoid("),
      some (.setStyle "> Seek(a ,b)" " ,")⟩)

/-- No text of that rule holds a whole mark, so the rule is told by its signature. -/
theorem signature_identifies_bristling :
    (Variant.evolution .bristling).Whole ∧
    (∀ text ∈ (Variant.evolution .bristling).texts, text.Unmarked) ∧
      (Variant.evolution .bristling).Identified := by
  have whole : (Variant.evolution .bristling).Whole := by
    refine ⟨⟨rfl, _, rfl, rfl, rfl⟩, List.forall_mem_nil _, ?_⟩
    simp [EvolutionRule.bristling, Trigger.units, TimeUnit.all]
  have unmarked : ∀ text ∈ (Variant.evolution .bristling).texts, text.Unmarked := by
    decide +kernel
  exact ⟨whole, unmarked, (signature_identifies whole).2 unmarked⟩

/-- Commas and arrows in texts hide where one part ends, so none of these values is told
by its signature. -/
theorem signature_ambiguous :
    ¬ Identified Condition.Whole Condition.signature (.timeRange "9, 10" "17") ∧
    ¬ Identified (fun _ => True) Action.signature (.setStyle "a, b" "c") ∧
    ¬ Identified Effect.Whole Effect.signature (.connect "sea, sky" "land" .zero) ∧
    ¬ Identified BehaviorRule.Whole BehaviorRule.signature
      ⟨some (.context "x) -> Prefer(y"), some (.prefer "z")⟩ ∧
    ¬ Identified EvolutionRule.Whole EvolutionRule.signature
      ⟨some (.learns "x) => UnlockDomain(y"), some (.unlock "z")⟩ := by
  refine ⟨fun told => ?_, fun told => ?_, fun told => ?_, fun told => ?_, fun told => ?_⟩
  · have same := told (.timeRange "9" "10, 17") ⟨trivial, List.forall_mem_nil _,
      List.forall_mem_nil _⟩ (by decide +kernel)
    exact absurd same (by decide +kernel)
  · have same := told (.setStyle "a" "b, c") trivial (by decide +kernel)
    exact absurd same (by decide +kernel)
  · have fits : (Effect.connect "sea" "sky, land" .zero).Whole :=
      ⟨trivial, by simp [Effect.numbers, Binary64.zero], List.forall_mem_nil _⟩
    have same := told (.connect "sea" "sky, land" .zero) fits (by decide +kernel)
    exact absurd same (by decide +kernel)
  · have same := told ⟨some (.context "x"), some (.prefer "y) -> Prefer(z")⟩ ⟨⟨rfl, rfl⟩,
      List.forall_mem_nil _, List.forall_mem_nil _⟩
      (by decide +kernel)
    exact absurd same (by decide +kernel)
  · have same := told ⟨some (.learns "x"), some (.unlock "y) => UnlockDomain(z")⟩
      ⟨⟨rfl, _, rfl, trivial⟩, List.forall_mem_nil _, List.forall_mem_nil _⟩
        (by decide +kernel)
    exact absurd same (by decide +kernel)

end Persona
