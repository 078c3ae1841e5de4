import Persona.Personality

/-!
# The texts of a personality

A personality is full of texts: names, values, circumstances. They can be listed, and
they can all be changed in the same way. A change that fixes every listed text fixes
the personality, and no other change does.
-/

namespace Persona

/-- Change the text of a circumstance. -/
def Context.mapTexts (f : Text → Text) : Context → Context
  | .topic value => .topic (f value)
  | .situation value => .situation (f value)
  | .timeOfDay value => .timeOfDay (f value)
  | .mood value => .mood (f value)

/-- Change the texts of a modifier. -/
def Modifier.mapTexts (f : Text → Text) : Modifier → Modifier
  | .decay rate unit => .decay rate unit
  | .when context => .when (context.map (Context.mapTexts f))
  | .unless context => .unless (context.map (Context.mapTexts f))
  | .amplifies target factor => .amplifies (f target) factor
  | .transformsTo target factor count => .transformsTo (f target) factor count

/-- Change the texts of a trait. -/
def Trait.mapTexts (f : Text → Text) (t : Trait) : Trait :=
  { t with name := f t.name, modifiers := t.modifiers.map (Option.map (Modifier.mapTexts f)) }

/-- Change the text of a topic. -/
def Topic.mapTexts (f : Text → Text) (t : Topic) : Topic := { t with name := f t.name }

/-- Change the texts of a connection. -/
def Connection.mapTexts (f : Text → Text) (c : Connection) : Connection :=
  { c with source := f c.source, target := f c.target }

/-- Change the texts of a domain. -/
def Domain.mapTexts (f : Text → Text) (d : Domain) : Domain :=
  ⟨f d.name, d.topics.map (Topic.mapTexts f), d.connections.map (Connection.mapTexts f)⟩

/-- Change the texts of a condition. -/
def Condition.mapTexts (f : Text → Text) : Condition → Condition
  | .tired => .tired
  | .motivated => .motivated
  | .context value => .context (f value)
  | .traitAbove trait threshold => .traitAbove (f trait) threshold
  | .timeRange start stop => .timeRange (f start) (f stop)

/-- Change the texts of an action. -/
def Action.mapTexts (f : Text → Text) : Action → Action
  | .prefer value => .prefer (f value)
  | .seek value => .seek (f value)
  | .avoid value => .avoid (f value)
  | .setStyle key value => .setStyle (f key) (f value)

/-- Change the texts of a behavior rule. -/
def BehaviorRule.mapTexts (f : Text → Text) (r : BehaviorRule) : BehaviorRule :=
  ⟨r.condition.map (Condition.mapTexts f), r.action.map (Action.mapTexts f)⟩

/-- Change the texts of a trigger. -/
def Trigger.mapTexts (f : Text → Text) : Trigger → Trigger
  | .learns topic => .learns (f topic)
  | .timeIn domain unit count => .timeIn (f domain) unit count
  | .interactions count => .interactions count
  | .feedback score => .feedback score

/-- Change the texts of an effect. -/
def Effect.mapTexts (f : Text → Text) : Effect → Effect
  | .adjust trait delta => .adjust (f trait) delta
  | .unlock domain => .unlock (f domain)
  | .connect source target strength => .connect (f source) (f target) strength
  | .adopt rule => .adopt (rule.mapTexts f)

/-- Change the texts of an evolution rule. -/
def EvolutionRule.mapTexts (f : Text → Text) (r : EvolutionRule) : EvolutionRule :=
  ⟨r.trigger.map (Trigger.mapTexts f), r.effect.map (Effect.mapTexts f)⟩

/-- Change every text of a personality in the same way, and nothing else. -/
def Personality.mapTexts (f : Text → Text) (p : Personality) : Personality :=
  ⟨f p.name, p.traits.map (Trait.mapTexts f), p.knowledge.map (Domain.mapTexts f),
   p.behaviors.map (BehaviorRule.mapTexts f), p.evolution.map (EvolutionRule.mapTexts f)⟩

/-- The text of a circumstance. -/
def Context.texts : Context → List Text
  | .topic value | .situation value | .timeOfDay value | .mood value => [value]

/-- The texts of a modifier. -/
def Modifier.texts : Modifier → List Text
  | .decay _ _ => []
  | .when context | .unless context => context.toList.flatMap Context.texts
  | .amplifies target _ | .transformsTo target _ _ => [target]

/-- The texts of a trait. -/
def Trait.texts (t : Trait) : List Text :=
  t.name :: t.modifiers.flatMap fun m => m.toList.flatMap Modifier.texts

/-- The texts of a domain. -/
def Domain.texts (d : Domain) : List Text :=
  d.name :: (d.topics.flatMap (fun t => [t.name]) ++ d.connections.flatMap fun c =>
    [c.source, c.target])

/-- The texts of a condition. -/
def Condition.texts : Condition → List Text
  | .tired | .motivated => []
  | .context value => [value]
  | .traitAbove trait _ => [trait]
  | .timeRange start stop => [start, stop]

/-- The texts of an action. -/
def Action.texts : Action → List Text
  | .prefer value | .seek value | .avoid value => [value]
  | .setStyle key value => [key, value]

/-- The texts of a behavior rule. -/
def BehaviorRule.texts (r : BehaviorRule) : List Text :=
  r.condition.toList.flatMap Condition.texts ++ r.action.toList.flatMap Action.texts

/-- The texts of a trigger. -/
def Trigger.texts : Trigger → List Text
  | .learns topic => [topic]
  | .timeIn domain _ _ => [domain]
  | .interactions _ | .feedback _ => []

/-- The texts of an effect. -/
def Effect.texts : Effect → List Text
  | .adjust trait _ => [trait]
  | .unlock domain => [domain]
  | .connect source target _ => [source, target]
  | .adopt rule => rule.texts

/-- The texts of an evolution rule. -/
def EvolutionRule.texts (r : EvolutionRule) : List Text :=
  r.trigger.toList.flatMap Trigger.texts ++ r.effect.toList.flatMap Effect.texts

/-- Every text of a personality. -/
def Personality.texts (p : Personality) : List Text :=
  p.name :: (p.traits.flatMap Trait.texts ++ (p.knowledge.flatMap Domain.texts ++
    (p.behaviors.flatMap BehaviorRule.texts ++ p.evolution.flatMap EvolutionRule.texts)))

section Fixed

variable {f : Text → Text}

/-- A change fixes a list when it fixes the texts of every member. -/
theorem map_eq_self_iff {α : Type} (xs : List α) {g : α → α} {texts : α → List Text}
    (member : ∀ x ∈ xs, g x = x ↔ ∀ t ∈ texts x, f t = t) :
    xs.map g = xs ↔ ∀ t ∈ xs.flatMap texts, f t = t := by
  induction xs with
  | nil => simp
  | cons x xs inductionHypothesis =>
    have first := member x List.mem_cons_self
    have others := inductionHypothesis fun y later => member y (List.mem_cons_of_mem x later)
    simp only [List.map_cons, List.cons.injEq, List.flatMap_cons, List.forall_mem_append,
      first, others]

/-- A change fixes an optional part when it fixes the texts of the part. -/
theorem optionMap_eq_self_iff {α : Type} {g : α → α} {texts : α → List Text} (value : Option α)
    (member : ∀ x, g x = x ↔ ∀ t ∈ texts x, f t = t) :
    value.map g = value ↔ ∀ t ∈ value.toList.flatMap texts, f t = t := by
  cases value with
  | none => simp
  | some x => simp [member x]

/-- A circumstance is fixed when its text is. -/
theorem Context.mapTexts_eq_self_iff (c : Context) :
    c.mapTexts f = c ↔ ∀ t ∈ c.texts, f t = t := by
  cases c <;> simp [Context.mapTexts, Context.texts]

/-- A modifier is fixed when its texts are. -/
theorem Modifier.mapTexts_eq_self_iff (m : Modifier) :
    m.mapTexts f = m ↔ ∀ t ∈ m.texts, f t = t := by
  cases m with
  | decay rate unit => simp [Modifier.mapTexts, Modifier.texts]
  | «when» context =>
    simpa [Modifier.mapTexts, Modifier.texts] using optionMap_eq_self_iff context
      Context.mapTexts_eq_self_iff
  | «unless» context =>
    simpa [Modifier.mapTexts, Modifier.texts] using optionMap_eq_self_iff context
      Context.mapTexts_eq_self_iff
  | amplifies target factor => simp [Modifier.mapTexts, Modifier.texts]
  | transformsTo target factor count => simp [Modifier.mapTexts, Modifier.texts]

/-- A trait is fixed when its texts are. -/
theorem Trait.mapTexts_eq_self_iff (t : Trait) :
    t.mapTexts f = t ↔ ∀ text ∈ t.texts, f text = text := by
  have modifiers := map_eq_self_iff t.modifiers
    fun m _ => optionMap_eq_self_iff m (Modifier.mapTexts_eq_self_iff (f := f))
  rw [Trait.texts, List.forall_mem_cons, ← modifiers]
  cases t
  simp [Trait.mapTexts]

/-- A domain is fixed when its texts are. -/
theorem Domain.mapTexts_eq_self_iff (d : Domain) :
    d.mapTexts f = d ↔ ∀ t ∈ d.texts, f t = t := by
  have topics : d.topics.map (Topic.mapTexts f) = d.topics ↔
      ∀ t ∈ d.topics.flatMap fun t => [t.name], f t = t :=
    map_eq_self_iff d.topics fun t _ => by cases t; simp [Topic.mapTexts]
  have connections : d.connections.map (Connection.mapTexts f) = d.connections ↔
      ∀ t ∈ d.connections.flatMap fun c => [c.source, c.target], f t = t :=
    map_eq_self_iff d.connections fun c _ => by cases c; simp [Connection.mapTexts]
  rw [Domain.texts, List.forall_mem_cons, List.forall_mem_append, ← topics, ← connections]
  cases d
  simp [Domain.mapTexts]

/-- A condition is fixed when its texts are. -/
theorem Condition.mapTexts_eq_self_iff (c : Condition) :
    c.mapTexts f = c ↔ ∀ t ∈ c.texts, f t = t := by
  cases c <;> simp [Condition.mapTexts, Condition.texts]

/-- An action is fixed when its texts are. -/
theorem Action.mapTexts_eq_self_iff (a : Action) :
    a.mapTexts f = a ↔ ∀ t ∈ a.texts, f t = t := by
  cases a <;> simp [Action.mapTexts, Action.texts]

/-- A behavior rule is fixed when its texts are. -/
theorem BehaviorRule.mapTexts_eq_self_iff (r : BehaviorRule) :
    r.mapTexts f = r ↔ ∀ t ∈ r.texts, f t = t := by
  have condition := optionMap_eq_self_iff r.condition (Condition.mapTexts_eq_self_iff (f := f))
  have action := optionMap_eq_self_iff r.action (Action.mapTexts_eq_self_iff (f := f))
  rw [BehaviorRule.texts, List.forall_mem_append, ← condition, ← action]
  cases r
  simp [BehaviorRule.mapTexts]

/-- A trigger is fixed when its text is. -/
theorem Trigger.mapTexts_eq_self_iff (t : Trigger) :
    t.mapTexts f = t ↔ ∀ text ∈ t.texts, f text = text := by
  cases t <;> simp [Trigger.mapTexts, Trigger.texts]

/-- An effect is fixed when its texts are. -/
theorem Effect.mapTexts_eq_self_iff (e : Effect) :
    e.mapTexts f = e ↔ ∀ t ∈ e.texts, f t = t := by
  cases e <;> simp [Effect.mapTexts, Effect.texts, BehaviorRule.mapTexts_eq_self_iff]

/-- An evolution rule is fixed when its texts are. -/
theorem EvolutionRule.mapTexts_eq_self_iff (r : EvolutionRule) :
    r.mapTexts f = r ↔ ∀ t ∈ r.texts, f t = t := by
  have trigger := optionMap_eq_self_iff r.trigger (Trigger.mapTexts_eq_self_iff (f := f))
  have effect := optionMap_eq_self_iff r.effect (Effect.mapTexts_eq_self_iff (f := f))
  rw [EvolutionRule.texts, List.forall_mem_append, ← trigger, ← effect]
  cases r
  simp [EvolutionRule.mapTexts]

/-- A personality is fixed by a change exactly when each of its texts is. -/
theorem Personality.mapTexts_eq_self_iff (p : Personality) :
    p.mapTexts f = p ↔ ∀ t ∈ p.texts, f t = t := by
  have traits := map_eq_self_iff p.traits fun t _ => t.mapTexts_eq_self_iff (f := f)
  have knowledge := map_eq_self_iff p.knowledge fun d _ => d.mapTexts_eq_self_iff (f := f)
  have behaviors := map_eq_self_iff p.behaviors fun r _ => r.mapTexts_eq_self_iff (f := f)
  have evolution := map_eq_self_iff p.evolution fun r _ => r.mapTexts_eq_self_iff (f := f)
  rw [Personality.texts, List.forall_mem_cons, List.forall_mem_append, List.forall_mem_append,
    List.forall_mem_append, ← traits, ← knowledge, ← behaviors, ← evolution]
  cases p
  simp [Personality.mapTexts]

end Fixed

end Persona
