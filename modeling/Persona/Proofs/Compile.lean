import Persona.Compile
import Persona.Proofs.Validation

/-!
# What can keep a personality from being compiled

Every printer and every target refuses a part that is missing, and the graph refuses a
connection of a domain that is not there. Validation stands in front of them. What it
lets through has all its parts and only connections between its own domains, so no
target meets what it would refuse. The one failure left is that of the structured
target, which has no text for a number that is not finite. Strengths of traits cannot be
such numbers, because validation bounds them; strengths and rates of connections can.
-/

namespace Persona

section Ends

variable {ε δ α β : Type}

/-- If the computation fails, `fails` holds of the failure, and else `post` of
the result. -/
def Ends (fails : ε → Prop) (post : α → Prop) : Except ε α → Prop
  | .error e => fails e
  | .ok value => post value

/-- The computation gives a result. -/
abbrev Succeeds (x : Except ε α) : Prop := Ends (fun _ => False) (fun _ => True) x

variable {fails weakly : ε → Prop} {post : α → Prop} {x : Except ε α}

/-- Weaker conclusions. -/
theorem Ends.imp {weaker : α → Prop} (ends : Ends fails post x)
    (failing : ∀ e, fails e → weakly e)
    (holding : ∀ value, post value → weaker value) : Ends weakly weaker x := by
  cases x with
  | error e => exact failing e ends
  | ok value => exact holding value ends

/-- One computation and then another. -/
theorem Ends.bind {wanted : β → Prop} {next : α → Except ε β} (first : Ends fails post x)
    (second : ∀ value, post value → Ends fails wanted (next value)) :
    Ends fails wanted (x >>= next) := by
  cases x with
  | error e => exact first
  | ok value => exact second value first

/-- A failure under another name. -/
theorem Ends.mapError {rename : ε → δ} {renamed : δ → Prop} (ends : Ends fails post x)
    (failing : ∀ e, fails e → renamed (rename e)) : Ends renamed post (x.mapError rename) := by
  cases x with
  | error e => exact failing e ends
  | ok value => exact ends

/-- A computation that succeeds does so under any name for its failure. -/
theorem succeeds_mapError {rename : ε → δ} (succeeds : Succeeds x) :
    Succeeds (x.mapError rename) :=
  Ends.mapError succeeds fun _ never => never

/-- A computation for every member of a list: `before` holds of all members and `after` of
all results. -/
theorem Ends.mapM {before : α → Prop} {after : β → Prop} {f : α → Except ε β} {xs : List α}
    (each : ∀ x ∈ xs, Ends fails (fun y => before x ∧ after y) (f x)) :
    Ends fails (fun ys => (∀ x ∈ xs, before x) ∧ ∀ y ∈ ys, after y) (xs.mapM f) := by
  induction xs with
  | nil => exact ⟨by simp, by simp⟩
  | cons x xs inductionHypothesis =>
    rw [List.mapM_cons]
    refine Ends.bind (each x List.mem_cons_self) fun y first => ?_
    refine Ends.bind (inductionHypothesis fun z member =>
      each z (List.mem_cons_of_mem x member)) fun ys others => ?_
    exact ⟨List.forall_mem_cons.mpr ⟨first.1, others.1⟩,
      List.forall_mem_cons.mpr ⟨first.2, others.2⟩⟩

/-- A computation that succeeds for every member of a list. -/
theorem succeeds_mapM {f : α → Except ε β} {xs : List α} (each : ∀ x ∈ xs, Succeeds (f x)) :
    Succeeds (xs.mapM f) := by
  have both : Ends (fun _ => False) (fun ys => (∀ x ∈ xs, True) ∧ ∀ y ∈ ys, True)
      (xs.mapM f) :=
    Ends.mapM fun x member => (each x member).imp (fun _ never => never) fun _ _ =>
      ⟨trivial, trivial⟩
  exact both.imp (fun _ never => never) fun _ _ => trivial

/-- Either of two results. -/
theorem succeeds_ite {condition : Prop} [Decidable condition] (first second : α) :
    Succeeds (if condition then .ok first else .ok second : Except ε α) := by
  split <;> exact trivial

/-- A part that is there is written where the writer needs nothing more. -/
theorem written_succeeds {writer : Writer} {part : Part} {write : α → Text} {value : Option α}
    (present : value.isSome = true) :
    Succeeds (written writer part (fun x => .ok (write x)) value) := by
  obtain ⟨x, rfl⟩ := Option.isSome_iff_exists.mp present
  exact trivial

end Ends

/-- A modifier with all its parts can be written. -/
theorem writeModifier_succeeds {m : Option Modifier}
    (complete : ∃ value, m = some value ∧ value.Complete) :
    Succeeds (writeModifier m) := by
  obtain ⟨value, rfl, parts⟩ := complete
  cases value with
  | «when» context => exact Ends.bind (written_succeeds parts) fun _ _ => trivial
  | «unless» context => exact Ends.bind (written_succeeds parts) fun _ _ => trivial
  | decay | amplifies | transformsTo => exact trivial

/-- A rule with both its parts can be written. -/
theorem BehaviorRule.write_succeeds {r : BehaviorRule} (complete : r.Complete) :
    Succeeds r.write := by
  refine Ends.bind (written_succeeds complete.1) fun _ _ => ?_
  exact Ends.bind (written_succeeds complete.2) fun _ _ => trivial

/-- An effect with all its parts can be written. -/
theorem writeEffect_succeeds {effect : Option Effect}
    (complete : ∃ value, effect = some value ∧ value.Complete) :
    Succeeds (writeEffect effect) := by
  obtain ⟨value, rfl, parts⟩ := complete
  cases value with
  | adopt rule => exact Ends.bind (BehaviorRule.write_succeeds parts) fun _ _ => trivial
  | adjust => exact succeeds_ite _ _
  | unlock | connect => exact trivial

namespace Prompt

/-- A modifier with all its parts can be put into words. -/
theorem modifierClause_succeeds {m : Option Modifier}
    (complete : ∃ value, m = some value ∧ value.Complete) :
    Succeeds (modifierClause m) := by
  obtain ⟨value, rfl, parts⟩ := complete
  cases value with
  | «when» context => exact Ends.bind (written_succeeds parts) fun _ _ => trivial
  | «unless» context => exact Ends.bind (written_succeeds parts) fun _ _ => trivial
  | decay | amplifies | transformsTo => exact trivial

/-- A rule with both its parts can be put into words. -/
theorem behaviorClause_succeeds {r : BehaviorRule} (complete : r.Complete) :
    Succeeds (behaviorClause r) := by
  refine Ends.bind (written_succeeds complete.1) fun _ _ => ?_
  exact Ends.bind (written_succeeds complete.2) fun _ _ => trivial

/-- An effect with all its parts can be put into words. -/
theorem effectPhrase_succeeds {effect : Option Effect}
    (complete : ∃ value, effect = some value ∧ value.Complete) :
    Succeeds (effectPhrase effect) := by
  obtain ⟨value, rfl, parts⟩ := complete
  cases value with
  | adopt rule => exact Ends.bind (behaviorClause_succeeds parts) fun _ _ => trivial
  | adjust => exact succeeds_ite _ _
  | unlock | connect => exact trivial

/-- A personality with all its parts can be put into words. -/
theorem emit_succeeds {p : Personality} (complete : p.Complete) (hint : Text) :
    Succeeds (emit p hint) := by
  have traits : Succeeds (p.traits.mapM traitLine) := succeeds_mapM fun t member =>
    Ends.bind (succeeds_mapM fun m inTrait =>
      modifierClause_succeeds (complete.modifiers t member m inTrait))
      fun _ _ => trivial
  have behaviors : Succeeds (p.behaviors.mapM behaviorLine) := succeeds_mapM fun r member =>
    Ends.bind (behaviorClause_succeeds (complete.behaviors r member)) fun _ _ => trivial
  have evolution : Succeeds (p.evolution.mapM evolutionLine) := succeeds_mapM fun r member =>
    Ends.bind (written_succeeds (complete.evolution r member).1) fun _ _ =>
      Ends.bind (effectPhrase_succeeds (complete.evolution r member).2) fun _ _ => trivial
  exact Ends.bind traits fun _ _ => Ends.bind behaviors fun _ _ =>
    Ends.bind evolution fun _ _ => trivial

end Prompt

namespace Sql

/-- Rows that can all be written. -/
theorem rows_succeeds {α : Type} {row : Nat → α → Except Missing Text} {items : List α}
    (each : ∀ item ∈ items, ∀ position, Succeeds (row position item)) :
    Succeeds (rows row items) := by
  refine Ends.bind (succeeds_mapM fun numbered member => ?_) fun _ _ => trivial
  exact each numbered.1 (List.fst_mem_of_mem_zipIdx member) numbered.2

/-- A personality with all its parts can be put into tables. -/
theorem emit_succeeds {p : Personality} (complete : p.Complete) : Succeeds (emit p) := by
  refine Ends.bind (rows_succeeds fun t member _ => ?_) fun _ _ => ?_
  · refine Ends.bind (succeeds_mapM fun m inTrait => ?_) fun _ _ => trivial
    exact writeModifier_succeeds (complete.modifiers t member m inTrait)
  refine Ends.bind (rows_succeeds fun _ _ _ => trivial) fun _ _ => ?_
  refine Ends.bind (rows_succeeds fun _ _ _ => trivial) fun _ _ => ?_
  refine Ends.bind (rows_succeeds fun r member _ => ?_) fun _ _ => ?_
  · refine Ends.bind (written_succeeds (complete.behaviors r member).1) fun _ _ => ?_
    exact Ends.bind (written_succeeds (complete.behaviors r member).2) fun _ _ => trivial
  refine Ends.bind (rows_succeeds fun r member _ => ?_) fun _ _ => trivial
  refine Ends.bind (written_succeeds (complete.evolution r member).1) fun _ _ => ?_
  exact Ends.bind (writeEffect_succeeds (complete.evolution r member).2) fun _ _ => trivial

end Sql

namespace Cypher

/-- Statements that can all be written. -/
theorem numbered_succeeds {α : Type} {entry : Nat → α → Except EmitError Text} {items : List α}
    (each : ∀ item ∈ items, ∀ position, Succeeds (entry position item)) :
    Succeeds (numbered entry items) := by
  refine Ends.bind (succeeds_mapM fun numbered member => ?_) fun _ _ => trivial
  exact each numbered.1 (List.fst_mem_of_mem_zipIdx member) numbered.2

/-- A declared domain has a variable. -/
theorem domainVariable?_isSome {p : Personality} {name : Text}
    (declared : p.DeclaresDomain name) :
    ∃ node, domainVariable? p name = some node := by
  obtain ⟨d, member, rfl⟩ := declared
  have numbered : d ∈ p.knowledge.zipIdx.map Prod.fst := by rwa [List.zipIdx_map_fst]
  obtain ⟨⟨_, position⟩, placed, rfl⟩ := List.mem_map.mp numbered
  rw [← Option.isSome_iff_exists, domainVariable?, Option.isSome_map, List.find?_isSome]
  exact ⟨_, List.mem_reverse.mpr placed, beq_self_eq_true _⟩

/-- A personality with all its parts whose connections lead between its own domains can be
put into a graph. -/
theorem emit_succeeds {p : Personality} (complete : p.Complete)
    (resolved : ∀ c ∈ p.connections, p.DeclaresDomain c.source ∧
      p.DeclaresDomain c.target) : Succeeds (emit p) := by
  refine Ends.bind (numbered_succeeds fun t member _ => ?_) fun _ _ => ?_
  · refine Ends.bind (succeeds_mapError (succeeds_mapM fun m inTrait => ?_)) fun _ _ => trivial
    exact writeModifier_succeeds (complete.modifiers t member m inTrait)
  refine Ends.bind (numbered_succeeds fun _ _ _ => trivial) fun _ _ => ?_
  refine Ends.bind (numbered_succeeds fun c member _ => ?_) fun _ _ => ?_
  · obtain ⟨source, sourceFound⟩ := domainVariable?_isSome (resolved c member).1
    obtain ⟨target, targetFound⟩ := domainVariable?_isSome (resolved c member).2
    simp only [connection, sourceFound, targetFound]
    exact trivial
  refine Ends.bind (numbered_succeeds fun r member _ => ?_) fun _ _ => ?_
  · refine Ends.bind (succeeds_mapError (written_succeeds (complete.behaviors r member).1))
      fun _ _ => ?_
    exact Ends.bind (succeeds_mapError (written_succeeds (complete.behaviors r member).2))
      fun _ _ => trivial
  refine Ends.bind (numbered_succeeds fun r member _ => ?_) fun _ _ => trivial
  refine Ends.bind (succeeds_mapError (written_succeeds (complete.evolution r member).1))
    fun _ _ => ?_
  exact Ends.bind (succeeds_mapError (writeEffect_succeeds (complete.evolution r member).2))
    fun _ _ => trivial

end Cypher

namespace Structured

/-- The failure of the structured target on one of these numbers, which is not finite. -/
def Unsupported (numbers : List Binary64) (e : EmitError) : Prop :=
  ∃ x ∈ numbers, x.isFinite = false ∧ e = .unsupportedNumber x

/-- A failure on some numbers is one on more. -/
theorem Unsupported.mono {numbers more : List Binary64} (among : numbers ⊆ more)
    (e : EmitError) (failure : Unsupported numbers e) : Unsupported more e := by
  obtain ⟨x, member, infinite, rfl⟩ := failure
  exact ⟨x, among member, infinite, rfl⟩

/-- A number is written exactly when it is finite. -/
theorem numberJson_ends (x : Binary64) :
    Ends (Unsupported [x]) (fun _ => x.isFinite = true) (numberJson x) := by
  unfold numberJson
  split
  · assumption
  · rename_i infinite
    exact ⟨x, List.mem_singleton_self x, by simpa using infinite, rfl⟩

/-- Values are written exactly when all their numbers are finite. -/
theorem mapM_ends {α : Type} {numbers : α → List Binary64}
    {write : α → Except EmitError Json} (xs : List α)
    (each : ∀ x, Ends (Unsupported (numbers x)) (fun _ => ∀ n ∈ numbers x,
      n.isFinite = true) (write x)) :
    Ends (Unsupported (xs.flatMap numbers)) (fun _ => ∀ n ∈ xs.flatMap numbers,
      n.isFinite = true)
      (xs.mapM write) := by
  have both : Ends (Unsupported (xs.flatMap numbers))
      (fun ys => (∀ x ∈ xs, ∀ n ∈ numbers x, n.isFinite = true) ∧ ∀ y ∈ ys, True)
        (xs.mapM write) := by
    refine Ends.mapM fun x member => (each x).imp (Unsupported.mono ?_) fun _ finite =>
      ⟨finite, trivial⟩
    exact fun n among => List.mem_flatMap.mpr ⟨x, member, among⟩
  exact both.imp (fun _ failure => failure) fun _ finite =>
    List.forall_mem_flatMap.mpr finite.1

/-- A connection is written exactly when its numbers are finite. -/
theorem connection_ends (c : Connection) :
    Ends (Unsupported c.numbers) (fun _ => ∀ x ∈ c.numbers, x.isFinite = true)
      (ConnectionEntry.toJson ⟨c.source, c.target, c.strength, c.rate⟩) := by
  obtain ⟨source, target, strength, rate⟩ := c
  refine Ends.bind ((numberJson_ends strength).imp
    (Unsupported.mono (by simp [Connection.numbers])) fun _ => id) ?_
  intro _ strengthFinite
  cases rate with
  | none =>
    have all : ∀ x ∈ Connection.numbers ⟨source, target, strength, none⟩,
        x.isFinite = true := by
      simpa [Connection.numbers] using strengthFinite
    exact all
  | some r =>
    refine Ends.bind ((numberJson_ends r).imp
      (Unsupported.mono (by simp [Connection.numbers])) fun _ => id) ?_
    intro _ rateFinite
    have all : ∀ x ∈ Connection.numbers ⟨source, target, strength, some r⟩,
        x.isFinite = true := by
      simpa [Connection.numbers] using ⟨strengthFinite, rateFinite⟩
    exact all

/-- A domain is written exactly when the numbers of its connections are finite. -/
theorem domain_ends (d : Domain) :
    Ends (Unsupported (d.connections.flatMap Connection.numbers))
      (fun _ => ∀ x ∈ d.connections.flatMap Connection.numbers, x.isFinite = true)
      (DomainEntry.ofDomain d).toJson := by
  have connections : Ends (Unsupported (d.connections.flatMap Connection.numbers))
      (fun _ => ∀ x ∈ d.connections.flatMap Connection.numbers, x.isFinite = true)
      ((DomainEntry.ofDomain d).connections.items.mapM ConnectionEntry.toJson) := by
    rw [DomainEntry.ofDomain, List.mapM_map]
    exact mapM_ends d.connections connection_ends
  exact Ends.bind connections fun _ finite => finite

/-- The parts of a personality with all its parts can be stored, and strengths are stored
as they are. -/
theorem ofPersonality_ends {p : Personality} (complete : p.Complete)
    (strengths : ∀ t ∈ p.traits, t.strength.isFinite = true) :
    Ends (fun _ => False) (fun document =>
      (∀ entry ∈ document.traits.items, entry.strength.isFinite = true) ∧
      document.knowledge.items = p.knowledge.map DomainEntry.ofDomain)
      (Document.ofPersonality p) := by
  have traits : Ends (fun _ => False) (fun entries => (∀ t ∈ p.traits, True) ∧
      ∀ entry ∈ entries, entry.strength.isFinite = true)
        (p.traits.mapM TraitEntry.ofTrait) := by
    refine Ends.mapM fun t member => Ends.bind (succeeds_mapM fun m inTrait =>
      ?_) fun _ _ => ⟨trivial, strengths t member⟩
    exact writeModifier_succeeds (complete.modifiers t member m inTrait)
  have behaviors : Succeeds (p.behaviors.mapM BehaviorEntry.ofRule) := by
    refine succeeds_mapM fun r member =>
      Ends.bind (written_succeeds (complete.behaviors r member).1) fun _ _ => ?_
    exact Ends.bind (written_succeeds (complete.behaviors r member).2) fun _ _ => trivial
  have evolution : Succeeds (p.evolution.mapM EvolutionEntry.ofRule) := by
    refine succeeds_mapM fun r member =>
      Ends.bind (written_succeeds (complete.evolution r member).1) fun _ _ => ?_
    exact Ends.bind (writeEffect_succeeds (complete.evolution r member).2) fun _ _ => trivial
  exact Ends.bind traits fun _ finite => Ends.bind behaviors fun _ _ =>
    Ends.bind evolution fun _ _ => ⟨finite.2, rfl⟩

/-- A personality with all its parts and finite strengths is written exactly when the
numbers of its connections are finite, and fails on one of them otherwise. -/
theorem emit_ends {p : Personality} (complete : p.Complete)
    (strengths : ∀ t ∈ p.traits, t.strength.isFinite = true) (indent : Text) :
    Ends (Unsupported (p.connections.flatMap Connection.numbers))
      (fun _ => ∀ x ∈ p.connections.flatMap Connection.numbers, x.isFinite = true)
      (emit p indent) := by
  refine Ends.bind ((ofPersonality_ends complete strengths).mapError fun _ never =>
    never.elim) ?_
  rintro document ⟨stored, known⟩
  have traits : Succeeds (document.traits.items.mapM TraitEntry.toJson) := by
    refine succeeds_mapM fun entry member => ?_
    have strength : Succeeds (numberJson entry.strength) := by
      rw [numberJson, if_pos (stored entry member)]
      exact trivial
    exact Ends.bind strength fun _ _ => trivial
  have knowledge : Ends (Unsupported (p.connections.flatMap Connection.numbers))
      (fun _ => ∀ x ∈ p.connections.flatMap Connection.numbers, x.isFinite = true)
      (document.knowledge.items.mapM DomainEntry.toJson) := by
    rw [known, List.mapM_map, Personality.connections, List.flatMap_assoc]
    exact mapM_ends p.knowledge domain_ends
  have json : Ends (Unsupported (p.connections.flatMap Connection.numbers))
      (fun _ => ∀ x ∈ p.connections.flatMap Connection.numbers, x.isFinite = true)
        document.toJson :=
    Ends.bind (traits.imp (fun _ never => never.elim) fun _ => id) fun _ _ =>
      Ends.bind knowledge fun _ finite => finite
  exact Ends.bind json fun _ finite => finite

end Structured

/-- A number between zero and one is finite. -/
theorem Binary64.InUnit.finite {x : Binary64} (inUnit : x.InUnit) : x.isFinite = true := by
  cases x with
  | finite => rfl
  | nan => exact absurd inUnit.1 (by decide)
  | infinity negative =>
    cases negative with
    | true => exact absurd inUnit.1 (by decide +kernel)
    | false => exact absurd inUnit.2 (by decide +kernel)

/-- Whatever passes validation has all its parts, finite strengths, and connections
between its own domains. -/
theorem Personality.validated {p : Personality} (passed : p.validate.2 = []) :
    p.Complete ∧ (∀ t ∈ p.traits, t.strength.isFinite = true) ∧
      ∀ c ∈ p.connections, p.DeclaresDomain c.source ∧ p.DeclaresDomain c.target := by
  have complete := validate_incomplete passed
  obtain ⟨own, -, -, -, -, domains, -⟩ := (validate_complete complete).mp passed
  obtain ⟨-, strengths, -⟩ := (Validation.ownErrors_eq_nil_iff p).mp own
  exact ⟨complete, fun t member => (strengths t member).finite,
    ((Check.domainReferences_eq_nil_iff p).mp domains).1⟩

/-- The domains of what passes validation have different names. -/
theorem Personality.validated_domains {p : Personality} (passed : p.validate.2 = []) :
    (p.knowledge.map Domain.name).Nodup := by
  obtain ⟨own, -⟩ := (validate_complete (validate_incomplete passed)).mp passed
  exact ((Validation.ownErrors_eq_nil_iff p).mp own).2.2

/-- What passes validation is written for every target, but for the structured one only if
the numbers of its connections are finite; that target fails on one of them otherwise. -/
theorem Target.emit_ends {p : Personality} (passed : p.validate.2 = []) (target : Target)
    (indent context : Text) :
    Ends (fun e => target = .json ∧
      Structured.Unsupported (p.connections.flatMap Connection.numbers) e)
      (fun _ => target = .json → ∀ x ∈ p.connections.flatMap Connection.numbers,
      x.isFinite = true)
      (target.emit indent p context) := by
  obtain ⟨complete, strengths, resolved⟩ := Personality.validated passed
  cases target with
  | json =>
    exact (Structured.emit_ends complete strengths indent).imp (fun _ failure =>
      ⟨rfl, failure⟩) fun _ finite _ => finite
  | lua => exact nofun
  | prompt =>
    exact ((Prompt.emit_succeeds complete context).mapError fun _ never => never.elim).imp
      (fun _ => id) fun _ _ => nofun
  | sql =>
    exact ((Sql.emit_succeeds complete).mapError fun _ never => never.elim).imp (fun _ =>
      id) fun _ _ => nofun
  | cypher =>
    exact (Cypher.emit_succeeds complete resolved).imp (fun _ never => never.elim)
      fun _ _ => nofun

namespace CompileOptions

/-- A built-in target is used where no emitter was registered under its name. -/
theorem emitter?_builtIn {options : CompileOptions} {target : Target}
    (builtIn : ∀ entry ∈ options.emitters, entry.1 ≠ target.text) :
    options.emitter? target.text = some (target.emit options.indent) := by
  have none : options.emitters.reverse.lookup target.text = none := by
    rw [List.lookup_eq_none_iff]
    intro entry member
    simpa using (builtIn entry (List.mem_reverse.mp member)).symm
  have found : Target.ofText? target.text = some target := by cases target <;> decide +kernel
  rw [emitter?, none, found]
  rfl

/-- What compiling for a built-in target answers with. -/
theorem compile_builtIn {options : CompileOptions} {target : Target}
    (builtIn : ∀ entry ∈ options.emitters, entry.1 ≠ target.text) (p : Personality)
    (context : Text) :
    (options.compile p target.text context).result =
      if p.validate.2 = [] then
        match target.emit options.indent p context with
        | .error e => .error (.within ("emit " ++ target.text) (.emission e))
        | .ok output => .ok ⟨target.text, output, p.validate.1.advice⟩
      else .error (.rejected p.validate.2) := by
  rw [compile, emitter?_builtIn builtIn]
  by_cases passed : p.validate.2 = []
  · cases emitted : target.emit options.indent p context <;> simp [passed, emitted]
  · simp [passed]

end CompileOptions

end Persona
