import Persona.Proofs.Grammar.Rules

/-!
# Reading back a printed personality

Entries that can be read are read by the list they stand in, none is skipped, and
the sections of a printed document are found in their order. Together with what
printing spells this gives the round trip: reading the printed form of a personality
gives the personality.
-/

namespace Persona.Grammar

open Grammar.Parser
open Spelling (word quoted fixed named call part)

variable {α : Type} {levels : Nat} {before middle rest : List Spelling}

section Recovering

variable {list : Text} {entry : Parser α} {setting : Setting} {tokens left : List Token}

/-- A turn at an entry that is read. -/
theorem recovering_read {value : α}
    (read : (entry setting tokens).outcome = .ok (value, left)) :
    recovering list entry setting tokens =
      ⟨(entry setting tokens).events, .ok (some value, left)⟩ := by
  simp only [recovering, read]

/-- A turn at an entry that is skipped. -/
theorem recovering_skipped {e : SyntaxError}
    (failed : (entry setting tokens).outcome = .error e)
    (found : afterSeparator? 0 tokens = some left) :
    recovering list entry setting tokens =
      ⟨(entry setting tokens).events ++ [.skipped list e], .ok (none, left)⟩ := by
  simp only [recovering, failed, found]

/-- A turn at an entry that can be neither read nor skipped. -/
theorem recovering_stuck {e : SyntaxError} (failed : (entry setting tokens).outcome = .error e)
    (unfound : afterSeparator? 0 tokens = none) :
    recovering list entry setting tokens = ⟨(entry setting tokens).events, .error e⟩ := by
  simp only [recovering, failed, unfound]

/-- Where a turn comes to an end, its entry was read or skipped. -/
theorem recovering_cases {entered : Option α}
    (read : (recovering list entry setting tokens).outcome = .ok (entered, left)) :
    (∃ value, entered = some value ∧ (entry setting tokens).outcome = .ok (value, left)) ∨
      ∃ e, entered = none ∧ (entry setting tokens).outcome = .error e ∧
        afterSeparator? 0 tokens = some left := by
  cases outcome : (entry setting tokens).outcome with
  | ok answer =>
    rw [recovering_read outcome] at read
    cases read
    exact .inl ⟨_, rfl, rfl⟩
  | error e =>
    cases found : afterSeparator? 0 tokens with
    | some behind =>
      rw [recovering_skipped outcome found] at read
      cases read
      exact .inr ⟨e, rfl, rfl, rfl⟩
    | none =>
      rw [recovering_stuck outcome found] at read
      cases read

end Recovering

/-- An entry that is read is not skipped. -/
theorem recovering_reads (list : Text) {entry : Parser α} {post : α → Prop}
    (reads : Reads entry levels before post rest) :
    Reads (recovering list entry) levels before (fun value => ∃ x, value = some x ∧
      post x) rest := by
  intro setting tokens allows spelled
  obtain ⟨value, left, read, holds, leftSpelled⟩ := reads setting tokens allows spelled
  refine ⟨some value, left, ?_, ⟨value, rfl, holds⟩, leftSpelled⟩
  rw [recovering_read (by rw [read]), read]

/-- The closing brace ends a list. -/
theorem entriesWithin_close (list : Text) (optional : Bool) (entry : Parser α) (fuel : Nat) :
    Reads (entriesWithin list optional entry (fuel + 1)) levels (fixed .braceClose :: rest)
      (· = []) rest :=
  Reads.atToken fun _ _ => Reads.bind Reads.advance fun _ _ => Reads.pure rfl

/-- An entry with its separator, and the entries after it. -/
theorem entriesWithin_entry (list : Text) (optional : Bool) {entry : Parser α} {fuel : Nat}
    {value : α} {values : List α} (notClosed : nextKind before ≠ .braceClose)
    (notEnded : nextKind before ≠ .endOfInput)
    (first : Reads (separated list optional entry) levels before (· = value) middle)
    (others : Reads (entriesWithin list optional entry fuel) levels middle (· = values) rest) :
    Reads (entriesWithin list optional entry (fuel + 1)) levels before (· = value :: values)
      rest := by
  refine Reads.bind Reads.current fun token shown => ?_
  rw [if_neg (by rw [shown.kind]; exact notClosed),
    if_neg (by rw [shown.kind]; exact notEnded)]
  refine Reads.bind (recovering_reads list first) ?_
  rintro _ ⟨_, rfl, rfl⟩
  exact Reads.andThen others (Reads.pure rfl)

/-- What can stand in a list: the entry is read in front of a semicolon or the closing
brace, and starts with neither the brace nor the end. -/
structure Entry (entry : Parser α) (levels : Nat) (value : α) (spelling : List Spelling) :
    Prop where
  reads : ∀ next rest, next = .semicolon ∨ next = .braceClose →
    Reads entry levels (spelling ++ fixed next :: rest) (· = value) (fixed next :: rest)
  starts : ∃ s ∈ spelling.head?, s.1 ≠ .braceClose ∧ s.1 ≠ .endOfInput

/-- An entry starts with its first token. -/
theorem Entry.nextKind {entry : Parser α} {value : α} {spelling : List Spelling}
    (isEntry : Entry entry levels value spelling) (more : List Spelling) :
    nextKind (spelling ++ more) ≠ .braceClose ∧
    Grammar.nextKind (spelling ++ more) ≠ .endOfInput := by
  obtain ⟨s, head, other⟩ := isEntry.starts
  obtain ⟨tail, rfl⟩ := List.head?_eq_some_iff.mp head
  exact other

/-- Entries with semicolons between them are read back. -/
theorem entriesWithin_reads (list : Text) {entry : Parser α} {values : List α}
    {parts : List (List Spelling)}
    (entries : List.Forall₂ (Entry entry levels) values parts) (rest : List Spelling)
    {fuel : Nat} (enough : values.length < fuel) :
    Reads (entriesWithin list false entry fuel) levels
      (Spelling.join .semicolon parts ++ fixed .braceClose :: rest) (· = values) rest := by
  induction entries generalizing fuel with
  | nil =>
    obtain ⟨fuel, rfl⟩ :=
      Nat.exists_eq_add_one_of_ne_zero (Nat.ne_of_gt (Nat.zero_lt_of_lt enough))
    exact entriesWithin_close list false entry fuel
  | @cons value spelling values parts isEntry others inductionHypothesis =>
    obtain ⟨fuel, rfl⟩ :=
      Nat.exists_eq_add_one_of_ne_zero (Nat.ne_of_gt (Nat.zero_lt_of_lt enough))
    have more := inductionHypothesis (Nat.lt_of_succ_lt_succ enough)
    cases others with
    | nil =>
      have starts := isEntry.nextKind (fixed .braceClose :: rest)
      refine entriesWithin_entry list false starts.1 starts.2 ?_ more
      refine Reads.andThen (isEntry.reads .braceClose rest (.inr rfl)) ?_
      exact Reads.atToken fun _ _ => Reads.pure rfl
    | @cons next nextSpelling values parts nextIsEntry others =>
      have spelled : Spelling.join .semicolon (spelling :: nextSpelling :: parts) ++
          fixed .braceClose :: rest =
          spelling ++ fixed .semicolon ::
            (Spelling.join .semicolon (nextSpelling :: parts) ++ fixed .braceClose ::
              rest) := by
        simp [Spelling.join]
      have starts := isEntry.nextKind (fixed .semicolon ::
        (Spelling.join .semicolon (nextSpelling :: parts) ++ fixed .braceClose :: rest))
      rw [spelled]
      refine entriesWithin_entry list false starts.1 starts.2 ?_ more
      refine Reads.andThen (isEntry.reads .semicolon _ (.inl rfl)) ?_
      exact Reads.atToken fun _ _ => Reads.bind Reads.advance fun _ _ => Reads.pure rfl

/-- A list of entries between braces is read back. -/
theorem entries_reads (list : Text) {entry : Parser α} {values : List α}
    {parts : List (List Spelling)}
    (all : List.Forall₂ (Entry entry levels) values parts) (rest : List Spelling) :
    Reads (entries list false entry) levels
      (fixed .braceOpen :: (Spelling.join .semicolon parts ++ fixed .braceClose :: rest))
      (· = values) rest := by
  have someTokens : ∀ part ∈ parts, 0 < part.length := by
    induction all with
    | nil => simp
    | cons isEntry others inductionHypothesis =>
      refine List.forall_mem_cons.mpr ⟨?_, inductionHypothesis⟩
      obtain ⟨s, head, -⟩ := isEntry.starts
      obtain ⟨tail, rfl⟩ := List.head?_eq_some_iff.mp head
      simp
  have enough : values.length < (Spelling.join .semicolon parts ++ fixed .braceClose ::
      rest).length + 1 := by
    have atLeast := length_join .semicolon someTokens
    have sameLength := all.length_eq
    simp only [List.length_append, List.length_cons]
    omega
  refine Reads.bind Reads.expect fun _ _ => ?_
  exact Reads.ofLength (p := fun length => entriesWithin list false entry (length + 1))
    (entriesWithin_reads list all rest enough)

/-- Neither a semicolon nor a closing brace continues a number, a list of modifiers
or a trait. -/
theorem separator_kinds {next : Kind} (separates : next = .semicolon ∨ next = .braceClose)
    (rest : List Spelling) : bindingPower (nextKind (fixed next :: rest)) = 0 ∧
      nextKind (fixed next :: rest) ≠ .comma ∧ nextKind (fixed next :: rest) ≠ .with := by
  rcases separates with rfl | rfl <;> simp [nextKind, fixed, bindingPower]

/-- A printed name is neither a brace nor the end. -/
theorem named_starts (text : Text) : (named text).1 ≠ .braceClose ∧
    (named text).1 ≠ .endOfInput := by
  rcases named_kind text with kind | kind <;> simp [kind]

/-- A trait can stand in a list. -/
theorem trait_entry {t : Trait} (printable : t.Printable) : Entry trait 2 t t.spelling where
  reads next rest separates := by
    obtain ⟨ends, noComma, noWith⟩ := separator_kinds separates rest
    exact trait_reads printable ends noComma noWith
  starts := ⟨_, rfl, named_starts t.name⟩

/-- A topic can stand in a list. -/
theorem topic_entry (owner : Text) {t : Topic} (printable : t.Printable) :
    Entry (domainEntry owner) 2 (.topic t) t.spelling where
  reads _ _ _ := topic_reads owner printable
  starts := ⟨_, rfl, named_starts t.name⟩

/-- A connection can stand in a list. -/
theorem connection_entry (owner : Text) {c : Connection} (printable : c.Printable) :
    Entry (domainEntry owner) 2 (.connections [c]) (c.spelling owner) where
  reads _ _ _ := connection_reads owner printable
  starts := by
    unfold Connection.spelling
    dsimp only
    split
    · exact ⟨_, rfl, by decide⟩
    · exact ⟨_, rfl, named_starts c.source⟩

/-- A behavior rule can stand in a list. -/
theorem behavior_entry {r : BehaviorRule} (printable : r.Printable) :
    Entry behavior 2 r r.spelling where
  reads _ _ _ := behavior_reads printable
  starts := ⟨_, rfl, by decide⟩

/-- An evolution rule can stand in a list. -/
theorem evolutionRule_entry {r : EvolutionRule} (printable : r.Printable) :
    Entry evolutionRule 3 r r.spelling where
  reads next rest separates := evolutionRule_reads printable (separator_kinds separates rest).1
  starts := ⟨_, rfl, by decide⟩

/-- The entries of a domain are sorted back into its topics and its connections. -/
theorem sorted_entries (topics : List Topic) (connections : List Connection) :
    topicsOf (topics.map .topic ++ connections.map fun c => .connections [c]) = topics ∧
      connectionsOf (topics.map .topic ++ connections.map fun c => .connections [c]) =
      connections := by
  refine ⟨?_, ?_⟩
  · unfold topicsOf
    rw [List.filterMap_append, List.filterMap_map, List.filterMap_map]
    simp
  · unfold connectionsOf
    rw [List.flatMap_append, List.flatMap_map, List.flatMap_map]
    simp

/-- A domain is read back. -/
theorem domain_reads {d : Domain} (printable : d.Printable) :
    Reads domain 2 (d.spelling ++ rest) (· = d) rest := by
  have topics : List.Forall₂ (Entry (domainEntry d.name) 2) (d.topics.map .topic)
      (d.topics.map Topic.spelling) := by
    rw [List.forall₂_map_left_iff, List.forall₂_map_right_iff, List.forall₂_same]
    exact fun t member => topic_entry d.name (printable.topics t member)
  have connections : List.Forall₂ (Entry (domainEntry d.name) 2) (d.connections.map fun c =>
      .connections [c])
      (d.connections.map (Connection.spelling d.name)) := by
    rw [List.forall₂_map_left_iff, List.forall₂_map_right_iff, List.forall₂_same]
    exact fun c member => connection_entry d.name (printable.connections c member)
  have spelled : d.spelling ++ rest = fixed .domain :: fixed .parenOpen :: named d.name ::
      fixed .parenClose ::
      fixed .braceOpen :: (Spelling.join .semicolon (d.topics.map Topic.spelling ++
        d.connections.map (Connection.spelling d.name)) ++ fixed .braceClose :: rest) := by
    simp [Domain.spelling]
  rw [spelled]
  refine Reads.bind Reads.expect fun _ _ =>
    Reads.andThen (Reads.parenthesized (name_reads "domain" d.name)) ?_
  refine Reads.andThen (entries_reads _ (List.rel_append topics connections) rest)
    (Reads.pure ?_)
  rw [(sorted_entries d.topics d.connections).1, (sorted_entries d.topics d.connections).2]

/-- Domains one after the other are read back. -/
theorem domainsWithin_reads (list : Text) {domains : List Domain}
    (printable : ∀ d ∈ domains, d.Printable)
    (rest : List Spelling) {fuel : Nat} (enough : domains.length < fuel) :
    Reads (entriesWithin list true domain fuel) 2
      (domains.flatMap Domain.spelling ++ fixed .braceClose :: rest) (· = domains) rest := by
  induction domains generalizing fuel with
  | nil =>
    obtain ⟨fuel, rfl⟩ :=
      Nat.exists_eq_add_one_of_ne_zero (Nat.ne_of_gt (Nat.zero_lt_of_lt enough))
    exact entriesWithin_close list true domain fuel
  | cons d domains inductionHypothesis =>
    obtain ⟨fuel, rfl⟩ :=
      Nat.exists_eq_add_one_of_ne_zero (Nat.ne_of_gt (Nat.zero_lt_of_lt enough))
    have more := inductionHypothesis (fun other member =>
      printable other (List.mem_cons_of_mem d member))
      (Nat.lt_of_succ_lt_succ enough)
    rw [List.flatMap_cons, List.append_assoc]
    refine entriesWithin_entry list true (by simp [nextKind, Domain.spelling, fixed])
      (by simp [nextKind, Domain.spelling, fixed]) ?_ more
    refine Reads.andThen (domain_reads (printable d List.mem_cons_self)) ?_
    cases domains with
    | nil => exact Reads.atToken fun _ _ => Reads.pure rfl
    | cons next domains => exact Reads.atToken fun _ _ => Reads.pure rfl

/-- A section that is printed is read back, and one that is left out is
taken for empty. -/
theorem section_reads {keyword : Kind} (list : Text) {entry : Parser α} {values : List α}
    {parts : List (List Spelling)} (all : List.Forall₂ (Entry entry levels) values parts)
    (absent : nextKind rest ≠ keyword) :
    Reads (optionalSection keyword (entries list false entry)) levels
      (sectionSpelling keyword parts ++ rest)
      (· = values) rest := by
  cases all with
  | nil =>
    refine Reads.andThen (Reads.check keyword) ?_
    rw [if_neg (by simpa [sectionSpelling] using absent)]
    exact Reads.pure rfl
  | @cons value spelling values parts first others =>
    have spelled : sectionSpelling keyword (spelling :: parts) ++ rest =
        fixed keyword :: fixed .braceOpen ::
        (Spelling.join .semicolon (spelling :: parts) ++ fixed .braceClose :: rest) := by
      simp [sectionSpelling]
    rw [spelled]
    refine Reads.andThen (Reads.check keyword) ?_
    rw [if_pos (by simp [nextKind, fixed])]
    exact Reads.bind Reads.advance fun _ _ => entries_reads list (.cons first others) rest

/-- The knowledge section is read back. -/
theorem knowledge_reads {domains : List Domain} (printable : ∀ d ∈ domains, d.Printable)
    (absent : nextKind rest ≠ .knowledge) :
    Reads (optionalSection .knowledge (entries "knowledge" true domain)) 2
      (knowledgeSpelling domains ++ rest)
      (· = domains) rest := by
  cases domains with
  | nil =>
    refine Reads.andThen (Reads.check .knowledge) ?_
    rw [if_neg (by simpa [knowledgeSpelling] using absent)]
    exact Reads.pure rfl
  | cons d domains =>
    have spelled : knowledgeSpelling (d :: domains) ++ rest =
        fixed .knowledge :: fixed .braceOpen ::
        ((d :: domains).flatMap Domain.spelling ++ fixed .braceClose :: rest) := by
      simp [knowledgeSpelling]
    have enough : (d :: domains).length <
        ((d :: domains).flatMap Domain.spelling ++ fixed .braceClose :: rest).length + 1 := by
      have atLeast (ds : List Domain) : ds.length ≤ (ds.flatMap Domain.spelling).length := by
        induction ds with
        | nil => simp
        | cons d ds inductionHypothesis =>
          simp [List.flatMap_cons, Domain.spelling] at inductionHypothesis ⊢
          omega
      have some := atLeast (d :: domains)
      simp only [List.length_append] at some ⊢
      omega
    rw [spelled]
    refine Reads.andThen (Reads.check .knowledge) ?_
    rw [if_pos (by simp [nextKind, fixed])]
    refine Reads.bind Reads.advance fun _ _ => Reads.bind Reads.expect fun _ _ => ?_
    exact Reads.ofLength (p := fun length =>
      entriesWithin "knowledge" true domain (length + 1))
      (domainsWithin_reads "knowledge" printable rest enough)

/-- A section starts with its keyword, or is left out. -/
theorem nextKind_section (keyword : Kind) (parts : List (List Spelling))
    (rest : List Spelling) :
    nextKind (sectionSpelling keyword parts ++ rest) = keyword ∨
      nextKind (sectionSpelling keyword parts ++ rest) = nextKind rest := by
  unfold sectionSpelling
  split
  · exact .inr rfl
  · exact .inl rfl

/-- The knowledge section starts with its keyword, or is left out. -/
theorem nextKind_knowledge (domains : List Domain) (rest : List Spelling) :
    nextKind (knowledgeSpelling domains ++ rest) = .knowledge ∨
      nextKind (knowledgeSpelling domains ++ rest) = nextKind rest := by
  unfold knowledgeSpelling
  split
  · exact .inr rfl
  · exact .inl rfl

/-- A whole document is read back. -/
theorem document_reads {p : Personality} (printable : p.Printable) :
    Reads document 3 p.spelling (· = p) [] := by
  have traits : List.Forall₂ (Entry trait 2) p.traits (p.traits.map Trait.spelling) := by
    rw [List.forall₂_map_right_iff, List.forall₂_same]
    exact fun t member => trait_entry (printable.traits t member)
  have behaviors : List.Forall₂ (Entry behavior 2) p.behaviors
      (p.behaviors.map BehaviorRule.spelling) := by
    rw [List.forall₂_map_right_iff, List.forall₂_same]
    exact fun r member => behavior_entry (printable.behaviors r member)
  have evolution : List.Forall₂ (Entry evolutionRule 3) p.evolution
      (p.evolution.map EvolutionRule.spelling) := by
    rw [List.forall₂_map_right_iff, List.forall₂_same]
    exact fun r member => evolutionRule_entry (printable.evolution r member)
  have close : nextKind [fixed .braceClose] = .braceClose := rfl
  -- Which keyword can come next after each section, from the last section backwards.
  have afterBehaviors :=
    nextKind_section .evolution (p.evolution.map EvolutionRule.spelling) [fixed .braceClose]
  have afterKnowledge := nextKind_section .behaviors (p.behaviors.map BehaviorRule.spelling)
    (sectionSpelling .evolution (p.evolution.map EvolutionRule.spelling) ++
      [fixed .braceClose])
  have afterTraits := nextKind_knowledge p.knowledge
    (sectionSpelling .behaviors (p.behaviors.map BehaviorRule.spelling) ++
      (sectionSpelling .evolution (p.evolution.map EvolutionRule.spelling) ++
        [fixed .braceClose]))
  refine Reads.atToken fun _ _ => Reads.bind Reads.expect fun _ _ =>
    Reads.andThen (name_quoted "personality" p.name) (Reads.bind Reads.expect fun _ _ => ?_)
  refine Reads.andThen ((section_reads "traits" traits (by grind)).mono (by decide)) ?_
  refine Reads.andThen ((knowledge_reads printable.knowledge (by grind)).mono (by decide)) ?_
  refine Reads.andThen ((section_reads "behaviors" behaviors (by grind)).mono (by decide)) ?_
  refine Reads.andThen (section_reads "evolution" evolution (by grind)) ?_
  have ending : Reads documentEnd 3 [fixed .braceClose] (fun _ => True) [] := by
    refine Reads.atToken fun _ _ => Reads.bind Reads.advance fun _ _ => ?_
    refine Reads.bind Reads.current fun following shown => ?_
    rw [if_pos (show following.kind = .endOfInput from shown.kind)]
    exact Reads.pure trivial
  exact Reads.bind ending fun _ _ => Reads.pure rfl

end Persona.Grammar

namespace Persona

/-- A personality that can be printed is printed, and reading the printed document with
any options that allow three levels of nesting gives it back without a notice. -/
theorem Personality.read_printed {p : Personality} (printable : p.Printable) :
    ∃ text, p.write = .ok text ∧ ∀ options : ReadingOptions, options.limit ≤ 0 ∨
      3 ≤ options.limit →
      Personality.read options text = ⟨[], [], .ok p⟩ := by
  obtain ⟨text, written, closed⟩ := Personality.write_closed printable
  refine ⟨text, written, fun options room => ?_⟩
  obtain ⟨stream, scanned, -, read⟩ :=
    Grammar.Reads.scan (Grammar.document_reads printable) closed.toOpen.spells room
  simp [Personality.read, scanned, read]

/-- Writing a personality that can be printed and reading the document with the default
options gives the same personality, and no entry of the document is skipped. -/
theorem Personality.read_write {p : Personality} (printable : p.Printable) :
    ∃ text, p.write = .ok text ∧ (Personality.read {} text).result = .ok p ∧
      (Personality.read {} text).notices = [] := by
  obtain ⟨text, written, readsBack⟩ := Personality.read_printed printable
  refine ⟨text, written, ?_⟩
  rw [readsBack {} (.inr (by decide))]
  exact ⟨rfl, rfl⟩

namespace Personality

/-- One half. -/
def half : Binary64 := .finite false ⟨0x3FE0000000000000, by decide⟩

/-- A personality with the parts that are hardest to print: names that are empty, a
keyword, the word for a unit of time or no UTF-8, a negative zero, and a connection with
and without a rate. -/
def awkward : Personality where
  name := []
  traits :=
    [⟨"with", half, [some (.decay (.finite true Binary64.zeroCode) .week),
        some (.unless (some (.mood "calm"))), some (.transformsTo "day" half (-100))]⟩,
     ⟨[0xFF], half, []⟩]
  knowledge :=
    [⟨"month", [⟨"if", .expert⟩], [⟨"month", "when", half, none⟩,
      ⟨[0xC3], "month", half, some half⟩]⟩]
  behaviors := [⟨some (.traitAbove "tired" half), some (.setStyle "then" "\t")⟩]
  evolution :=
    [⟨some (.timeIn "week" .day 100), some (.adjust "day" half.neg)⟩,
     ⟨some (.feedback half), some (.adopt ⟨some .tired, some (.avoid "day")⟩)⟩]

/-- A hundred is a count, and so is its negative. -/
theorem isCount_hundred : IsCount 100 ∧ IsCount (-100) :=
  ⟨⟨by decide, by decide, .finite false ⟨0x4059000000000000, by decide⟩, by decide +kernel⟩,
    ⟨by decide, by decide, .finite true ⟨0x4059000000000000, by decide⟩, by decide +kernel⟩⟩

/-- Each part of that personality can be printed. -/
theorem awkward_printable : awkward.Printable where
  name := by decide
  traits := by
    have decay : Present Modifier.Printable
        (some (.decay (.finite true Binary64.zeroCode) .week)) :=
      ⟨_, rfl, rfl, by decide⟩
    have calm : Present Modifier.Printable (some (.unless (some (.mood "calm")))) :=
      ⟨_, rfl, _, rfl, show Text.Quotable "calm" by decide⟩
    have transforms : Present Modifier.Printable (some (.transformsTo "day" half (-100))) :=
      ⟨_, rfl, by decide, rfl, isCount_hundred.2⟩
    simp only [awkward, List.forall_mem_cons, List.not_mem_nil, false_implies, implies_true,
      and_true]
    exact ⟨⟨by decide, rfl, by simp [decay, calm, transforms]⟩, ⟨by decide, rfl, by simp⟩⟩
  knowledge := by
    simp only [awkward, List.forall_mem_cons, List.not_mem_nil, false_implies, implies_true,
      and_true]
    refine ⟨by decide, ?_, ?_⟩
    · simpa using ⟨by decide, by decide⟩
    · simp only [List.forall_mem_cons, List.not_mem_nil, false_implies, implies_true, and_true]
      exact ⟨⟨by decide, by decide, rfl, by simp⟩,
        ⟨by decide, by decide, rfl, by rintro _ ⟨rfl⟩; rfl⟩⟩
  behaviors := by
    simp only [awkward, List.forall_mem_cons, List.not_mem_nil, false_implies, implies_true,
      and_true]
    exact ⟨⟨_, rfl, by decide, rfl⟩, ⟨_, rfl, by decide, by decide⟩⟩
  evolution := by
    simp only [awkward, List.forall_mem_cons, List.not_mem_nil, false_implies, implies_true,
      and_true]
    exact ⟨⟨⟨_, rfl, by decide, by decide, isCount_hundred.1⟩, ⟨_, rfl, by decide, rfl⟩⟩,
      ⟨⟨_, rfl, rfl⟩, ⟨_, rfl, ⟨_, rfl, trivial⟩, ⟨_, rfl, show Text.Quotable _ by decide⟩⟩⟩⟩

/-- The awkward personality is written, and is read back with no notice. -/
theorem read_write_awkward : awkward.Printable ∧ ∃ text, awkward.write = .ok text ∧
    (Personality.read {} text).result = .ok awkward ∧
    (Personality.read {} text).notices = [] :=
  ⟨awkward_printable, read_write awkward_printable⟩

end Personality

end Persona
