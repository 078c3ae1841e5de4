import Persona.Proofs.Target.Query

/-!
# The graph of a personality

What a database creates when it reads the query of a personality that passes
validation: one root, a node for every trait, domain, behavior and evolution rule, and
an edge for every connection. The texts are those of the personality, whatever bytes
they are made of.

A node is called by a letter and its position, so no two have the same name, and every
name is introduced before it is used. Edges between domains find their ends by the
names of the domains, which validation keeps apart.
-/

namespace Persona.Cypher

open Structured (exists_of_bind_ok mapError_eq_ok)

/-- The graph that a query creates, kind by kind. -/
structure Graph where
  root : Node
  traits : List Node
  domains : List Node
  connections : List Edge
  behaviors : List Node
  evolution : List Node

/-- A node, and the edge that links it from the root. -/
def linked (relation : Text) (n : Node) : List Clause :=
  [.node n, .edge ⟨"p", relation, n.handle, []⟩]

namespace Graph

/-- The nodes that are linked from the root. -/
def nodes (g : Graph) : List Node := g.traits ++ g.domains ++ g.behaviors ++ g.evolution

/-- The clauses of the query. -/
def clauses (g : Graph) : List Clause :=
  .node g.root :: (g.traits.flatMap (linked "HAS_TRAIT") ++
    (g.domains.flatMap (linked "KNOWS") ++
    (g.connections.map .edge ++ (g.behaviors.flatMap (linked "EXHIBITS") ++
      g.evolution.flatMap (linked "EVOLVES_BY")))))

end Graph

/-- The node of the trait at its position. -/
def IsTraitNode (entry : Trait × Nat) (n : Node) : Prop :=
  ∃ modifiers, entry.1.modifiers.mapM writeModifier = .ok modifiers ∧
    n = ⟨nodeName "t" entry.2, "Trait",
      [("name", .literal entry.1.name), ("strength", .bare entry.1.strength.text),
      ("modifiers", .list modifiers)]⟩

/-- The property for a topic. -/
def topicProperty (t : Topic) : Property := ("topic." ++ t.name, .literal t.level.text)

/-- The node of the domain at its position. -/
def domainNode (entry : Domain × Nat) : Node :=
  ⟨nodeName "d" entry.2, "Domain", ("name", .literal entry.1.name) ::
    entry.1.topics.map topicProperty⟩

/-- The node of the behavior at its position, both parts as document text. -/
def IsBehaviorNode (entry : BehaviorRule × Nat) (n : Node) : Prop :=
  ∃ condition action, writeCondition entry.1.condition = .ok condition ∧
    writeAction entry.1.action = .ok action ∧
    n = ⟨nodeName "b" entry.2, "Behavior",
      [("condition", .literal condition), ("action", .literal action)]⟩

/-- The node of the evolution rule at its position, both parts as document text. -/
def IsEvolutionNode (entry : EvolutionRule × Nat) (n : Node) : Prop :=
  ∃ trigger effect, writeTrigger entry.1.trigger = .ok trigger ∧
    writeEffect entry.1.effect = .ok effect ∧
    n = ⟨nodeName "e" entry.2, "Evolution",
      [("trigger", .literal trigger), ("effect", .literal effect)]⟩

/-- The name that a node has as a property. -/
def Node.title? (n : Node) : Option Text :=
  match n.properties.lookup (Text.ofString "name") with
  | some (.literal text) => some text
  | _ => none

/-- One of the nodes is called by the handle, and it is the only one with the name. -/
def Refers (domains : List Node) (handle name : Text) : Prop :=
  ∃ n ∈ domains, n.handle = handle ∧ ∀ m ∈ domains, m.title? = some name ↔ m = n

/-- The properties of a connection; a rate that is not there has none. -/
def connectionProperties (c : Connection) : List Property :=
  ("strength", .bare c.strength.text) :: match c.rate with
    | some r => [("evolution_rate", .bare r.text)]
    | none => []

/-- The edge of the connection, between nodes of domains. -/
def IsConnectionEdge (domains : List Node) (c : Connection) (e : Edge) : Prop :=
  Refers domains e.source c.source ∧ Refers domains e.target c.target ∧
    e.relation = "CONNECTS_TO" ∧
    e.properties = connectionProperties c

/-- The graph tells of everything in the personality, in order. -/
structure Graph.Tells (g : Graph) (p : Personality) : Prop where
  root : g.root = ⟨"p", "Personality", [("name", .literal p.name)]⟩
  traits : List.Forall₂ IsTraitNode p.traits.zipIdx g.traits
  domains : g.domains = p.knowledge.zipIdx.map domainNode
  connections : List.Forall₂ (IsConnectionEdge g.domains) p.connections g.connections
  behaviors : List.Forall₂ IsBehaviorNode p.behaviors.zipIdx g.behaviors
  evolution : List.Forall₂ IsEvolutionNode p.evolution.zipIdx g.evolution

/-- Every node gets a name that is new, and every edge is between names that nodes were
given before. -/
inductive WellScoped : (scope : List Text) → List Clause → Prop
  | nil {scope : List Text} : WellScoped scope []
  | node {scope : List Text} {n : Node} {rest : List Clause} (fresh : n.handle ∉ scope)
      (others : WellScoped (scope ++ [n.handle]) rest) : WellScoped scope (.node n :: rest)
  | edge {scope : List Text} {e : Edge} {rest : List Clause} (source : e.source ∈ scope)
      (target : e.target ∈ scope)
      (others : WellScoped scope rest) : WellScoped scope (.edge e :: rest)

/-- The clause links the handle from the root. -/
def Clause.linksTo (handle : Text) : Clause → Bool
  | .edge e => e.source = "p" && e.target = handle
  | .node _ => false

/-- Numerals of different positions differ. -/
theorem nodeName_inj {letter : Text} {i j : Nat}
    (same : nodeName letter i = nodeName letter j) : i = j := by
  have numerals := congrArg Text.digitsValue (List.append_cancel_left same)
  simpa only [Text.digitsValue_ofNat] using numerals

/-- Nodes that are numbered behind one letter have different names. -/
theorem nodup_nodeName (letter : Text) (count : Nat) :
    ((List.range count).map (nodeName letter)).Nodup :=
  List.nodup_range.map fun _ _ => nodeName_inj

/-- The name of a node starts with its letter. -/
theorem nodeName_head {letter : Text} {first : UInt8} (starts : letter.head? = some first)
    {count : Nat} :
    ∀ handle ∈ (List.range count).map (nodeName letter), handle.head? = some first := by
  refine List.forall_mem_map.mpr fun position _ => ?_
  rw [nodeName, List.head?_append, starts]
  rfl

/-- Names that start with different letters differ. -/
theorem disjoint_of_heads {names others : List Text} {first second : UInt8}
    (here : ∀ name ∈ names, name.head? = some first)
    (there : ∀ name ∈ others, name.head? = some second) (differ : first ≠ second) :
    names.Disjoint others :=
  fun name member among =>
    differ (Option.some.inj ((here name member).symm.trans (there name among)))

/-- The letters of the kinds of nodes. -/
def letters : List Text := ["t", "d", "b", "e"]

/-- The bytes of the names of nodes. -/
def nameBytes : List UInt8 := [116, 100, 98, 101] ++ Layout.numericBytes

/-- Letters and digits are among them. -/
theorem nodeName_bytes {letter : Text} (known : letter ∈ letters) (position : Nat) :
    ∀ b ∈ nodeName letter position, b ∈ nameBytes := by
  have checked : letters.all (fun letter => letter.all nameBytes.contains) = true := by decide
  simp only [List.all_eq_true, List.contains_iff_mem] at checked
  intro b member
  rcases List.mem_append.mp member with first | digit
  · exact checked letter known b first
  · exact List.mem_append_right _ (Layout.digit_numeric (Text.ofNat_digits position b digit))

/-- The names of nodes are words of the language. -/
theorem nodeName_name {letter : Text} (known : letter ∈ letters) (position : Nat) :
    Name (nodeName letter position) := by
  have checked : nameBytes.all (fun b => !dialect.separates b && !dialect.isMark b &&
      b != 47 && b != 67) = true := by
    decide
  simp only [List.all_eq_true, Bool.and_eq_true, Bool.not_eq_true', bne_iff_ne] at checked
  have bytes := nodeName_bytes known position
  refine ⟨⟨?_, fun b member => (checked b (bytes b member)).1.1, ?_⟩, .word fun same => ?_⟩
  · exact List.append_ne_nil_of_right_ne_nil _ (Text.ofNat_ne_nil position)
  · refine List.Pairwise.isChain (List.pairwise_of_forall_mem_list fun a member b _ => ?_)
    have noSlash := (checked a (bytes a member)).1.2
    simp [dialect, noSlash]
  · have capital : (67 : UInt8) ∈ nodeName letter position := by
      rw [same]
      decide
    exact (checked 67 (bytes 67 capital)).2 rfl

/-- A node with its properties, and the edge that links it, are read one
after the other. -/
theorem linked_reads {letter label relation text : Text} {texts : List Text}
    {properties : List Property}
    (known : letter ∈ letters) (position : Nat) (labelName : Name label)
    (relationName : Name relation) (each : List.Forall₂ ReadsProperty texts properties)
    (spelled : text = Text.join ", " texts) :
    Reads (createNode (nodeName letter position) label text ++
      link relation (nodeName letter position))
      (linked relation ⟨nodeName letter position, label, properties⟩) := by
  rw [spelled]
  have handle := nodeName_name known position
  exact (createNode_reads handle labelName each).append (link_reads relationName handle)

/-- The clauses of a trait. -/
theorem trait_reads {position : Nat} {t : Trait} {text : Text}
    (written : trait position t = .ok text) :
    ∃ n, Reads text (linked "HAS_TRAIT" n) ∧ IsTraitNode (t, position) n := by
  obtain ⟨modifiers, modifiersWritten, written⟩ := exists_of_bind_ok written
  obtain rfl := Except.ok.inj written
  refine ⟨_, linked_reads (by decide) position ⟨by decide +kernel, by decide⟩
    ⟨by decide +kernel, by decide⟩
    (.cons (.literal "name: " "name" (by decide) (by decide) t.name)
      (.cons (.number "strength: " "strength" (by decide) (by decide) t.strength)
        (.cons (.list "modifiers: [" "modifiers" (by decide) (by decide) modifiers) .nil))) ?_,
    modifiers, mapError_eq_ok.mp modifiersWritten, rfl⟩
  simp only [Text.join, List.append_assoc]
  rfl

/-- The clauses of a domain. -/
theorem domain_reads (position : Nat) (d : Domain) :
    Reads (domain position d) (linked "KNOWS" (domainNode (d, position))) := by
  have topics : List.Forall₂ ReadsProperty (d.topics.map fun t =>
      topicKey t.name ++ ": " ++ literal t.level.text)
      (d.topics.map topicProperty) := by
    rw [List.forall₂_map_left_iff, List.forall₂_map_right_iff]
    exact List.forall₂_same.mpr fun t _ => ReadsProperty.topic t.name t.level.text
  exact linked_reads (by decide) position ⟨by decide +kernel, by decide⟩
    ⟨by decide +kernel, by decide⟩
    (.cons (.literal "name: " "name" (by decide) (by decide) d.name) topics) rfl

/-- The clauses of a behavior. -/
theorem behavior_reads {position : Nat} {b : BehaviorRule} {text : Text}
    (written : behavior position b = .ok text) :
    ∃ n, Reads text (linked "EXHIBITS" n) ∧ IsBehaviorNode (b, position) n := by
  obtain ⟨condition, conditionWritten, written⟩ := exists_of_bind_ok written
  obtain ⟨action, actionWritten, written⟩ := exists_of_bind_ok written
  obtain rfl := Except.ok.inj written
  refine ⟨_, linked_reads (by decide) position ⟨by decide +kernel, by decide⟩
    ⟨by decide +kernel, by decide⟩
    (.cons (.literal "condition: " "condition" (by decide) (by decide) condition)
      (.cons (.literal "action: " "action" (by decide) (by decide) action) .nil)) ?_,
    condition, action, mapError_eq_ok.mp conditionWritten, mapError_eq_ok.mp actionWritten,
    rfl⟩
  simp only [Text.join, List.append_assoc]
  rfl

/-- The clauses of an evolution rule. -/
theorem evolution_reads {position : Nat} {e : EvolutionRule} {text : Text}
    (written : evolution position e = .ok text) :
    ∃ n, Reads text (linked "EVOLVES_BY" n) ∧ IsEvolutionNode (e, position) n := by
  obtain ⟨trigger, triggerWritten, written⟩ := exists_of_bind_ok written
  obtain ⟨effect, effectWritten, written⟩ := exists_of_bind_ok written
  obtain rfl := Except.ok.inj written
  refine ⟨_, linked_reads (by decide) position ⟨by decide +kernel, by decide⟩
    ⟨by decide +kernel, by decide⟩
    (.cons (.literal "trigger: " "trigger" (by decide) (by decide) trigger)
      (.cons (.literal "effect: " "effect" (by decide) (by decide) effect) .nil)) ?_,
    trigger, effect, mapError_eq_ok.mp triggerWritten, mapError_eq_ok.mp effectWritten, rfl⟩
  simp only [Text.join, List.append_assoc]
  rfl

/-- Texts that are read one by one are read one after the other. -/
theorem reads_flatten {α β : Type} {spelled : β → List Clause} {tells : α → β → Prop}
    {entries : List α} {texts : List Text}
    (each : List.Forall₂ (fun entry text => ∃ x, Reads text (spelled x) ∧ tells entry x)
      entries texts) :
    ∃ found, Reads texts.flatten (found.flatMap spelled) ∧
      List.Forall₂ tells entries found := by
  induction each with
  | nil => exact ⟨[], .nil, .nil⟩
  | cons first _ inductionHypothesis =>
    obtain ⟨x, here, tells⟩ := first
    obtain ⟨found, read, told⟩ := inductionHypothesis
    exact ⟨x :: found, here.append read, .cons tells told⟩

/-- Entries that are written one by one are read one by one. -/
theorem numbered_reads {α β : Type} {text : Text} {entry : Nat → α → Except EmitError Text}
    {items : List α} (spelled : β → List Clause) (tells : α × Nat → β → Prop)
    (each : ∀ item position entryText, entry position item = .ok entryText →
      ∃ x, Reads entryText (spelled x) ∧ tells (item, position) x)
    (written : numbered entry items = .ok text) :
    ∃ found, Reads text (found.flatMap spelled) ∧ List.Forall₂ tells items.zipIdx found := by
  obtain ⟨texts, all, written⟩ := exists_of_bind_ok written
  obtain rfl := Except.ok.inj written
  exact reads_flatten ((Structured.forall₂_of_mapM all).imp fun numbered entryText =>
    each _ _ _)

/-- Nodes that are called by their positions have the names of all positions, in order. -/
theorem handles_numbered {α : Type} {letter : Text} {tells : α × Nat → Node → Prop}
    {items : List α} {nodes : List Node} (told : List.Forall₂ tells items.zipIdx nodes)
    (called : ∀ entry n, tells entry n → n.handle = nodeName letter entry.2) :
    nodes.map Node.handle = (List.range nodes.length).map (nodeName letter) := by
  have each : nodes.map Node.handle = (items.zipIdx.map Prod.snd).map (nodeName letter) := by
    rw [List.map_map, ← List.forall₂_eq_eq_eq, List.forall₂_map_left_iff,
      List.forall₂_map_right_iff]
    exact (told.imp called).flip
  rw [each, List.zipIdx_map_snd, ← told.length_eq, List.length_zipIdx, List.range_eq_range']

/-- The variable of a domain is that of the node at its position. -/
theorem domainVariable?_eq {p : Personality} {name handle : Text}
    (found : domainVariable? p name = some handle) :
    ∃ entry ∈ p.knowledge.zipIdx, entry.1.name = name ∧
      handle = (domainNode entry).handle := by
  obtain ⟨entry, first, rfl⟩ := Option.map_eq_some_iff.mp found
  have same := List.find?_some first
  exact ⟨entry, List.mem_reverse.mp (List.mem_of_find?_eq_some first), eq_of_beq same, rfl⟩

/-- A node of a domain has its name. -/
theorem domainNode_title (entry : Domain × Nat) :
    (domainNode entry).title? = some entry.1.name := rfl

/-- Among domains with different names, the variable of a domain refers to its node. -/
theorem refers_domainVariable {p : Personality} {name handle : Text}
    (distinct : (p.knowledge.map Domain.name).Nodup)
    (found : domainVariable? p name = some handle) :
    Refers (p.knowledge.zipIdx.map domainNode) handle name := by
  obtain ⟨entry, placed, rfl, rfl⟩ := domainVariable?_eq found
  refine ⟨domainNode entry, List.mem_map_of_mem placed, rfl,
    List.forall_mem_map.mpr fun other otherPlaced => ?_⟩
  rw [domainNode_title, Option.some.injEq]
  have names : (p.knowledge.zipIdx.map fun entry => entry.1.name).Nodup := by
    rw [← List.zipIdx_map_fst 0 p.knowledge, List.map_map] at distinct
    exact distinct
  constructor
  · intro same
    rw [List.inj_on_of_nodup_map names otherPlaced placed same]
  · intro same
    have titles := congrArg Node.title? same
    simpa only [domainNode_title, Option.some.injEq] using titles

/-- The clause of a connection, between the nodes of its domains. -/
theorem connection_reads {p : Personality} {c : Connection} {text : Text}
    (distinct : (p.knowledge.map Domain.name).Nodup) (written : connection p c = .ok text) :
    ∃ e, Reads text [.edge e] ∧ IsConnectionEdge (p.knowledge.zipIdx.map domainNode) c e := by
  unfold connection at written
  split at written
  · rename_i source target sourceFound targetFound
    obtain ⟨sourceEntry, -, -, rfl⟩ := domainVariable?_eq sourceFound
    obtain ⟨targetEntry, -, -, rfl⟩ := domainVariable?_eq targetFound
    have sourceName : Name (domainNode sourceEntry).handle :=
      nodeName_name (by decide) sourceEntry.2
    have targetName : Name (domainNode targetEntry).handle :=
      nodeName_name (by decide) targetEntry.2
    have strength := ReadsProperty.number "strength: " "strength" (by decide) (by decide)
      c.strength
    have constant : Text.ofString ")-[:CONNECTS_TO \x7bstrength: " =
        Text.ofString ")-[:CONNECTS_TO \x7b" ++ Text.ofString "strength: " := by decide
    refine ⟨⟨(domainNode sourceEntry).handle, "CONNECTS_TO",
      (domainNode targetEntry).handle, connectionProperties c⟩,
      ?_, refers_domainVariable distinct sourceFound,
      refers_domainVariable distinct targetFound, rfl, rfl⟩
    simp only [Except.ok.injEq] at written
    subst written
    unfold connectionProperties
    rw [constant]
    cases c.rate with
    | none =>
      have reads := connects_reads sourceName targetName (.cons strength .nil)
      simp only [Text.join, List.append_assoc, List.nil_append] at reads ⊢
      exact reads
    | some r =>
      have rate := ReadsProperty.number "evolution_rate: " "evolution_rate" (by decide)
        (by decide) r
      have reads := connects_reads sourceName targetName (.cons strength (.cons rate .nil))
      have separated : Text.ofString ", evolution_rate: " =
          Text.ofString ", " ++ Text.ofString "evolution_rate: " := by
        decide
      simp only [Text.join, separated, List.append_assoc] at reads ⊢
      exact reads
  · cases written

/-- Nodes with new names that differ, each with its link, may stand where the
root is known. -/
theorem wellScoped_linked {relation : Text} {nodes : List Node} {scope : List Text}
    {rest : List Clause}
    (root : Text.ofString "p" ∈ scope) (distinct : (scope ++ nodes.map Node.handle).Nodup)
    (others : WellScoped (scope ++ nodes.map Node.handle) rest) :
    WellScoped scope (nodes.flatMap (linked relation) ++ rest) := by
  induction nodes generalizing scope with
  | nil => simpa using others
  | cons n nodes inductionHypothesis =>
    have regrouped : scope ++ (n :: nodes).map Node.handle =
        scope ++ [n.handle] ++ nodes.map Node.handle := by simp
    rw [regrouped] at distinct others
    have fresh : n.handle ∉ scope := by
      have prefixDistinct := (List.nodup_append.mp distinct).1
      intro known
      exact (List.nodup_append.mp prefixDistinct).2.2 n.handle known n.handle
        (List.mem_singleton_self _) rfl
    refine .node fresh (.edge (List.mem_append_left _ root)
      (List.mem_append_right _ (List.mem_singleton_self _)) ?_)
    exact inductionHypothesis (List.mem_append_left _ root) distinct others

/-- Edges between names that are known may stand anywhere. -/
theorem wellScoped_edges {edges : List Edge} {scope : List Text} {rest : List Clause}
    (known : ∀ e ∈ edges, e.source ∈ scope ∧ e.target ∈ scope)
    (others : WellScoped scope rest) :
    WellScoped scope (edges.map .edge ++ rest) := by
  induction edges with
  | nil => simpa using others
  | cons e edges inductionHypothesis =>
    obtain ⟨here, later⟩ := List.forall_mem_cons.mp known
    exact .edge here.1 here.2 (inductionHypothesis later)

/-- Among nodes with their links, a name is linked as often as a node has it. -/
theorem countP_linked (relation handle : Text) (nodes : List Node) :
    (nodes.flatMap (linked relation)).countP (Clause.linksTo handle) =
      (nodes.map Node.handle).count handle := by
  induction nodes with
  | nil => rfl
  | cons n nodes inductionHypothesis =>
    have own : (linked relation n).countP (Clause.linksTo handle) =
        if n.handle == handle then 1 else 0 := by
      by_cases same : n.handle = handle <;> simp [linked, Clause.linksTo, same]
    rw [List.flatMap_cons, List.countP_append, inductionHypothesis, List.map_cons,
      List.count_cons, own, Nat.add_comm]

namespace Graph

/-- The names of all nodes, in the order in which they are introduced. -/
def handles (g : Graph) : List Text := g.root.handle :: g.nodes.map Node.handle

/-- The nodes are called by letters and positions, and connections use names
of domains. -/
structure Named (g : Graph) : Prop where
  root : g.root.handle = "p"
  traits : g.traits.map Node.handle = (List.range g.traits.length).map (nodeName "t")
  domains : g.domains.map Node.handle = (List.range g.domains.length).map (nodeName "d")
  behaviors : g.behaviors.map Node.handle = (List.range g.behaviors.length).map (nodeName "b")
  evolution : g.evolution.map Node.handle = (List.range g.evolution.length).map (nodeName "e")
  connections : ∀ e ∈ g.connections, e.source ∈ g.domains.map Node.handle ∧
    e.target ∈ g.domains.map Node.handle

variable {g : Graph}

/-- No two nodes have the same name. -/
theorem Named.distinct (named : g.Named) : g.handles.Nodup := by
  have rootHead : ∀ handle ∈ [g.root.handle], handle.head? = some 112 := by
    rw [named.root]
    decide
  have traitHeads : ∀ handle ∈ g.traits.map Node.handle, handle.head? = some 116 := by
    rw [named.traits]
    exact nodeName_head (by decide)
  have domainHeads : ∀ handle ∈ g.domains.map Node.handle, handle.head? = some 100 := by
    rw [named.domains]
    exact nodeName_head (by decide)
  have behaviorHeads : ∀ handle ∈ g.behaviors.map Node.handle, handle.head? = some 98 := by
    rw [named.behaviors]
    exact nodeName_head (by decide)
  have evolutionHeads : ∀ handle ∈ g.evolution.map Node.handle, handle.head? = some 101 := by
    rw [named.evolution]
    exact nodeName_head (by decide)
  have handles : g.handles = [g.root.handle] ++ g.traits.map Node.handle ++
      g.domains.map Node.handle ++
      g.behaviors.map Node.handle ++ g.evolution.map Node.handle := by
    simp [Graph.handles, nodes]
  rw [handles]
  refine List.Nodup.append (List.Nodup.append
    (List.Nodup.append (List.Nodup.append (List.nodup_singleton _) ?_ ?_) ?_ ?_)
    ?_ ?_) ?_ ?_
  · exact named.traits ▸ nodup_nodeName _ _
  · exact disjoint_of_heads rootHead traitHeads (by decide)
  · exact named.domains ▸ nodup_nodeName _ _
  · exact List.disjoint_append_left.mpr ⟨disjoint_of_heads rootHead domainHeads (by decide),
      disjoint_of_heads traitHeads domainHeads (by decide)⟩
  · exact named.behaviors ▸ nodup_nodeName _ _
  · exact List.disjoint_append_left.mpr ⟨List.disjoint_append_left.mpr
      ⟨disjoint_of_heads rootHead behaviorHeads (by decide),
        disjoint_of_heads traitHeads behaviorHeads (by decide)⟩,
      disjoint_of_heads domainHeads behaviorHeads (by decide)⟩
  · exact named.evolution ▸ nodup_nodeName _ _
  · exact List.disjoint_append_left.mpr
      ⟨List.disjoint_append_left.mpr ⟨List.disjoint_append_left.mpr
      ⟨disjoint_of_heads rootHead evolutionHeads (by decide),
        disjoint_of_heads traitHeads evolutionHeads (by decide)⟩,
      disjoint_of_heads domainHeads evolutionHeads (by decide)⟩,
        disjoint_of_heads behaviorHeads evolutionHeads (by decide)⟩

/-- Every name is introduced once, and before it is used. -/
theorem Named.wellScoped (named : g.Named) : WellScoped [] g.clauses := by
  have root : Text.ofString "p" ∈ [g.root.handle] := by simp [named.root]
  have distinct : ([g.root.handle] ++ g.traits.map Node.handle ++ g.domains.map Node.handle ++
      g.behaviors.map Node.handle ++ g.evolution.map Node.handle).Nodup := by
    simpa [handles, nodes] using named.distinct
  -- The names that are known in front of each kind are a start of the whole list.
  have toBehaviors := distinct.of_append_left
  have toDomains := toBehaviors.of_append_left
  have toTraits := toDomains.of_append_left
  refine .node List.not_mem_nil ?_
  refine wellScoped_linked root toTraits ?_
  refine wellScoped_linked (List.mem_append_left _ root) toDomains ?_
  refine wellScoped_edges (fun e member => ?_) ?_
  · obtain ⟨source, target⟩ := named.connections e member
    exact ⟨List.mem_append_right _ source, List.mem_append_right _ target⟩
  · refine wellScoped_linked (List.mem_append_left _ (List.mem_append_left _ root))
      toBehaviors ?_
    rw [← List.append_nil (g.evolution.flatMap _)]
    exact wellScoped_linked (List.mem_append_left _
      (List.mem_append_left _ (List.mem_append_left _ root))) distinct .nil

/-- Every node but the root is linked from the root exactly once. -/
theorem Named.linked_once (named : g.Named) :
    ∀ n ∈ g.nodes, g.clauses.countP (Clause.linksTo n.handle) = 1 := by
  intro n member
  have connections : (g.connections.map Clause.edge).countP (Clause.linksTo n.handle) = 0 := by
    rw [List.countP_eq_zero, List.forall_mem_map]
    intro e among
    have source := (named.connections e among).1
    rw [named.domains] at source
    have head : e.source.head? = some 100 := nodeName_head (by decide) e.source source
    have other : e.source ≠ Text.ofString "p" := by
      rintro same
      rw [same] at head
      exact absurd head (by decide)
    simp [Clause.linksTo, other]
  have total : g.clauses.countP (Clause.linksTo n.handle) =
      (g.nodes.map Node.handle).count n.handle := by
    simp only [clauses, nodes, List.countP_cons, List.countP_append, countP_linked,
      connections, List.map_append, List.count_append, Clause.linksTo]
    simp
    omega
  rw [total]
  exact List.count_eq_one_of_mem (List.nodup_cons.mp named.distinct).2
    (List.mem_map_of_mem member)

end Graph

/-- The clause of the root. -/
theorem root_reads (name : Text) :
    Reads (createNode "p" "Personality" ("name: " ++ literal name))
      [.node ⟨"p", "Personality", [("name", .literal name)]⟩] :=
  createNode_reads ⟨by decide +kernel, by decide⟩ ⟨by decide +kernel, by decide⟩
    (.cons (.literal "name: " "name" (by decide) (by decide) name) .nil)

/-- What refers to a domain is its name. -/
theorem Refers.known {domains : List Node} {handle name : Text}
    (refers : Refers domains handle name) :
    handle ∈ domains.map Node.handle := by
  obtain ⟨n, member, rfl, -⟩ := refers
  exact List.mem_map_of_mem member

/-- A query that was written is read as the graph of its personality, if no two domains
have the same name. -/
theorem emit_reads {p : Personality} {text : Text}
    (distinct : (p.knowledge.map Domain.name).Nodup) (emitted : emit p = .ok text) :
    ∃ (g : Graph) (body : Text), g.Tells p ∧ g.Named ∧ Reads body g.clauses ∧ body ≠ [] ∧
      text = Text.withoutEnding [10] body ++ ";\n" := by
  obtain ⟨traitTexts, traitsWritten, emitted⟩ := exists_of_bind_ok emitted
  obtain ⟨domainTexts, domainsWritten, emitted⟩ := exists_of_bind_ok emitted
  obtain ⟨connectionTexts, connectionsWritten, emitted⟩ := exists_of_bind_ok emitted
  obtain ⟨behaviorTexts, behaviorsWritten, emitted⟩ := exists_of_bind_ok emitted
  obtain ⟨evolutionTexts, evolutionWritten, emitted⟩ := exists_of_bind_ok emitted
  obtain rfl := Except.ok.inj emitted
  obtain ⟨traits, traitsRead, traitsTold⟩ :=
    numbered_reads (linked "HAS_TRAIT") IsTraitNode (fun _ _ _ => trait_reads) traitsWritten
  obtain ⟨domains, domainsRead, domainsTold⟩ :=
    numbered_reads (linked "KNOWS") (fun entry n => domainNode entry = n)
    (fun d position _ written => ⟨_, Except.ok.inj written ▸ domain_reads position d, rfl⟩)
      domainsWritten
  obtain ⟨edges, edgesRead, edgesTold⟩ := numbered_reads (fun e => [.edge e])
    (fun entry e => IsConnectionEdge (p.knowledge.zipIdx.map domainNode) entry.1 e)
    (fun _ _ _ => connection_reads distinct) connectionsWritten
  obtain ⟨behaviors, behaviorsRead, behaviorsTold⟩ :=
    numbered_reads (linked "EXHIBITS") IsBehaviorNode (fun _ _ _ => behavior_reads)
      behaviorsWritten
  obtain ⟨rules, rulesRead, rulesTold⟩ :=
    numbered_reads (linked "EVOLVES_BY") IsEvolutionNode (fun _ _ _ => evolution_reads)
      evolutionWritten
  have traitHandles := handles_numbered traitsTold fun _ _ ⟨_, _, node⟩ =>
    congrArg Node.handle node
  have domainHandles := handles_numbered domainsTold fun _ _ node =>
    (congrArg Node.handle node).symm
  have behaviorHandles := handles_numbered behaviorsTold fun _ _ ⟨_, _, _, _, node⟩ =>
    congrArg Node.handle node
  have ruleHandles := handles_numbered rulesTold fun _ _ ⟨_, _, _, _, node⟩ =>
    congrArg Node.handle node
  obtain rfl : p.knowledge.zipIdx.map domainNode = domains :=
    List.forall₂_eq_eq_eq ▸ (List.forall₂_map_left_iff.mpr domainsTold)
  have inOrder : List.Forall₂ (IsConnectionEdge (p.knowledge.zipIdx.map domainNode))
      p.connections edges := by
    have told := List.forall₂_map_left_iff.mpr edgesTold
    rwa [List.zipIdx_map_fst] at told
  have known : ∀ e ∈ edges, e.source ∈ (p.knowledge.zipIdx.map domainNode).map Node.handle ∧
      e.target ∈ (p.knowledge.zipIdx.map domainNode).map Node.handle := by
    have ends := inOrder.flip.imp fun e c isEdge =>
      And.intro (And.intro isEdge.1.known isEdge.2.1.known) isEdge
    exact ((List.forall₂_and_left edges p.connections).mp ends).1
  refine ⟨⟨⟨"p", "Personality", [("name", .literal p.name)]⟩, traits, _, edges, behaviors,
    rules⟩, _,
    ⟨rfl, traitsTold, rfl, inOrder, behaviorsTold, rulesTold⟩,
    ⟨rfl, traitHandles, domainHandles, behaviorHandles, ruleHandles, known⟩, ?_, ?_, rfl⟩
  · have whole :=
      (((((root_reads p.name).append traitsRead).append domainsRead).append edgesRead).append
      behaviorsRead).append rulesRead
    rw [← List.map_eq_flatMap] at whole
    simpa [Graph.clauses] using whole
  · have start : Text.ofString "CREATE (" ≠ [] := by decide
    simp [createNode, start]

/-- The key of a topic is that of no other name, and not that of the name of
the domain. -/
theorem topicProperty_apart (t u : Topic) :
    (topicProperty t).1 ≠ "name" ∧ ((topicProperty t).1 = (topicProperty u).1 →
      t.name = u.name) := by
  refine ⟨fun same => ?_, List.append_cancel_left⟩
  have firsts : Text.ofString "topic." = 116 :: Text.ofString "opic." ∧
      Text.ofString "name" = 110 :: Text.ofString "ame" := by
    decide
  rw [topicProperty, firsts.1, firsts.2] at same
  exact absurd (List.cons.inj same).1 (by decide)

/-- The query of a personality that passes validation creates the graph of the
personality, whatever bytes its texts are made of. There is a query; cut into lexemes, it
is one statement with a semicolon at its end and none before. A database reads in it one
root, a node for each trait, domain, behavior and evolution rule and an edge for each
connection, in order and with the texts as they were; an edge is between the nodes of the
domains that the connection names. Every name is introduced once and before it is used,
and every node is linked from the root once. The key of a topic is never that of the name,
and different topics have different keys. -/
theorem emit_graph {p : Personality} (passed : p.validate.2 = []) :
    ∃ text, emit p = .ok text ∧
      (∃ query, dialect.lexemes text = some (query ++ [.symbol 59]) ∧
      Lexeme.symbol 59 ∉ query) ∧
      ∃ g : Graph, read? text = some g.clauses ∧ g.Tells p ∧ WellScoped [] g.clauses ∧
        (∀ n ∈ g.nodes, g.clauses.countP (Clause.linksTo n.handle) = 1) ∧
        ∀ t u : Topic, (topicProperty t).1 ≠ "name" ∧
          ((topicProperty t).1 = (topicProperty u).1 → t.name = u.name) := by
  obtain ⟨complete, -, resolved⟩ := Personality.validated passed
  have succeeds := emit_succeeds complete resolved
  cases emitted : emit p with
  | error e =>
    rw [emitted] at succeeds
    exact succeeds.elim
  | ok text =>
    obtain ⟨g, body, tells, named, reads, nonempty, rfl⟩ :=
      emit_reads (Personality.validated_domains passed) emitted
    obtain ⟨query, cut, noSemicolon, read⟩ := reads.query nonempty
    exact ⟨_, rfl, ⟨query, cut, noSemicolon⟩, g, read, tells, named.wellScoped,
      named.linked_once, topicProperty_apart⟩

/-- A personality whose texts would end their literals, their keys and the statement if
they were not quoted. -/
def wily : Personality where
  name := "\\'\x7d) // ;"
  traits := [⟨"it's", .finite false Binary64.zeroCode, [some (.when (some (.mood "\\")))]⟩]
  knowledge := [⟨"'", [⟨"\x60: 1;", .expert⟩, ⟨"name", .beginner⟩], []⟩,
    ⟨"name", [⟨"/*", .beginner⟩], [⟨"'", "name", .finite true Binary64.zeroCode, none⟩]⟩]
  behaviors := [⟨some (.context "\\'"), some (.seek "'")⟩]
  evolution := [⟨some (.learns ";'"), some (.unlock "'")⟩]

/-- The statement reads back to a graph that tells that personality and names nothing
before it is bound. -/
theorem emit_graph_wily :
    wily.validate.2 = [] ∧ ∃ text, emit wily = .ok text ∧
      ∃ g : Graph, read? text = some g.clauses ∧ g.Tells wily ∧ WellScoped [] g.clauses := by
  have passed : wily.validate.2 = [] := by decide +kernel
  obtain ⟨text, emitted, -, g, read, tells, inScope, -⟩ := emit_graph passed
  exact ⟨passed, text, emitted, g, read, tells, inScope⟩

end Persona.Cypher
