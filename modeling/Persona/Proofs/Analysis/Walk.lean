import Persona.Proofs.Analysis.Canonical
import Persona.Proofs.Analysis.Checks

/-!
# What a walk meets

The walk over the connection graph is described by rules that set no bound on its depth.
Every walk that the rules allow comes to an end, because the names on a path are distinct
names of the graph, and it ends in one way only: the one that the search computes.

Along a walk the path follows the connections without meeting a name twice, and goes on
to each name that is looked at. So a name that is looked at while it is on the path
closes a cycle of distinct names, and what is noted is that cycle as it is shown. No
cycle is noted twice. Which cycles are met is not said here: a walk does not enter a
name that it has finished with, so there may be cycles that no walk closes.
-/

namespace Persona

namespace Cycles

/-- The walk that looks at names from the end of a path. A name on the path closes a
cycle, a finished one is passed by, and any other is entered: the walk looks at all its
successors from there before it goes on. -/
inductive Walks (next : Text → List Text) : (path names : List Text) →
    (before after : Walk) → Prop where
  | done (path : List Text) (w : Walk) : Walks next path [] w w
  | closes {path names : List Text} {name : Text} {w after : Walk} (onPath : name ∈ path)
      (others : Walks next path names (close path name w) after) :
        Walks next path (name :: names) w after
  | passes {path names : List Text} {name : Text} {w after : Walk} (offPath : name ∉ path)
      (finished : name ∈ w.finished) (others : Walks next path names w after) :
      Walks next path (name :: names) w after
  | enters {path names : List Text} {name : Text} {w inner after : Walk}
      (offPath : name ∉ path)
      (unfinished : name ∉ w.finished) (inside : Walks next (path ++ [name]) (next name)
        w inner)
      (others : Walks next path names { inner with finished := name :: inner.finished }
        after) :
      Walks next path (name :: names) w after

section Walks

variable {next : Text → List Text} {fuel : Nat} {path names : List Text} {name : Text}
    {w after : Walk}

/-- The rules leave no choice. -/
theorem Walks.unique {other : Walk} (first : Walks next path names w after)
    (second : Walks next path names w other) :
    after = other := by
  induction first generalizing other with
  | done => cases second; rfl
  | closes onPath _ inductionHypothesis =>
    cases second with
    | closes _ others => exact inductionHypothesis others
    | passes offPath _ _ => exact absurd onPath offPath
    | enters offPath _ _ _ => exact absurd onPath offPath
  | passes offPath finished _ inductionHypothesis =>
    cases second with
    | closes onPath _ => exact absurd onPath offPath
    | passes _ _ others => exact inductionHypothesis others
    | enters _ unfinished _ _ => exact absurd finished unfinished
  | enters offPath unfinished _ _ insideHypothesis inductionHypothesis =>
    cases second with
    | closes onPath _ => exact absurd onPath offPath
    | passes _ finished _ => exact absurd finished unfinished
    | enters _ _ inside others =>
      obtain rfl := insideHypothesis inside
      exact inductionHypothesis others

/-- A fold of steps is a walk, if entering a name is. -/
theorem walks_foldl_of_visits (visits : ∀ name ∈ names, name ∉ path → ∀ w, ∃ inner,
      Walks next (path ++ [name]) (next name) w inner ∧
        visit next fuel path name w = { inner with finished := name :: inner.finished }) :
    Walks next path names w (names.foldl (step next fuel path) w) := by
  induction names generalizing w with
  | nil => exact .done path w
  | cons name names inductionHypothesis =>
    have others (w : Walk) : Walks next path names w (names.foldl (step next fuel path) w) :=
      inductionHypothesis fun b member => visits b (List.mem_cons_of_mem name member)
    rw [List.foldl_cons]
    by_cases onPath : name ∈ path
    · have closing : step next fuel path w name = close path name w := by simp [step, onPath]
      rw [closing]
      exact .closes onPath (others _)
    by_cases finished : name ∈ w.finished
    · have passing : step next fuel path w name = w := by simp [step, onPath, finished]
      rw [passing]
      exact .passes onPath finished (others _)
    · have entering : step next fuel path w name = visit next fuel path name w := by
        simp [step, onPath, finished]
      obtain ⟨inner, inside, visited⟩ := visits name List.mem_cons_self onPath w
      rw [entering, visited]
      exact .enters onPath finished inside (others _)

/-- A fold of steps is a walk, as long as the fuel is enough for all names that are not
on the path. -/
theorem walks_foldl {all : List Text} (closed : ∀ a ∈ all, ∀ b ∈ next a, b ∈ all)
    (distinct : path.Nodup)
    (known : path ⊆ all) (ahead : names ⊆ all) (enough : all.length ≤ fuel + path.length) :
    Walks next path names w (names.foldl (step next fuel path) w) := by
  induction fuel generalizing path names w with
  | zero =>
    refine walks_foldl_of_visits fun name member offPath => ?_
    have fits := ((List.nodup_cons.mpr ⟨offPath, distinct⟩).subperm
      (List.cons_subset.mpr ⟨ahead member, known⟩)).length_le
    rw [List.length_cons] at fits
    omega
  | succ fuel inductionHypothesis =>
    refine walks_foldl_of_visits fun name member offPath w => ⟨_, ?_, visit_succ⟩
    apply inductionHypothesis
    · simpa using List.Nodup.concat offPath distinct
    · exact List.append_subset.mpr ⟨known, by simpa using ahead member⟩
    · exact closed name (ahead member)
    · rw [List.length_append, List.length_singleton]
      omega

/-- The search is a walk from all nodes. -/
theorem walks_find (p : Personality) :
    ∃ after, Walks (successors p) [] (nodes p) ⟨[], []⟩ after ∧
      find p = after.met.reverse := by
  refine ⟨(nodes p).foldl (step (successors p) (nodes p).length []) ⟨[], []⟩, ?_, rfl⟩
  exact walks_foldl (successors_subset p) List.nodup_nil (List.nil_subset _)
    (List.Subset.refl _) (by simp)

/-- A cycle of distinct names each of which is related to the next. -/
structure Simple (related : Text → Text → Prop) (cycle : Cycle Text) : Prop where
  nonempty : cycle ≠ Cycle.nil
  distinct : cycle.Nodup
  linked : cycle.Chain related

/-- Distinct names, each of which is related to the next and the last one to the first,
are a simple cycle. -/
theorem simple_cons {related : Text → Text → Prop} {first : Text} {rest : List Text}
    (distinct : (first :: rest).Nodup) (linked : (first :: rest ++ [first]).IsChain related) :
    Simple related (first :: rest : List Text) :=
  ⟨by simp, Cycle.nodup_coe_iff.mpr distinct, (Cycle.chain_coe_cons _ first rest).mpr linked⟩

/-- The path follows the edges of the graph without meeting a name twice, and goes on to
each of the names. -/
structure Leads (next : Text → List Text) (path names : List Text) : Prop where
  distinct : path.Nodup
  linked : ∀ name ∈ names, (path ++ [name]).IsChain (Edge next)

/-- The path of a walk that has not entered any name leads to all. -/
theorem leads_nil (next : Text → List Text) (names : List Text) : Leads next [] names :=
  ⟨List.nodup_nil, by simp⟩

/-- A path that leads to names leads to the later ones. -/
theorem Leads.later (leads : Leads next path (name :: names)) : Leads next path names :=
  ⟨leads.distinct, fun b member => leads.linked b (List.mem_cons_of_mem name member)⟩

/-- A path that leads to a name that is not on it can be continued with the name, and then
leads to its successors. -/
theorem Leads.enter (leads : Leads next path (name :: names)) (offPath : name ∉ path) :
    Leads next (path ++ [name]) (next name) where
  distinct := by simpa using List.Nodup.concat offPath leads.distinct
  linked := by
    intro b edge
    have sofar := leads.linked name List.mem_cons_self
    rw [List.isChain_append]
    exact ⟨sofar, List.isChain_singleton b, by simpa [Edge] using edge⟩

/-- What is dropped up to a name is what stands before its first place. -/
theorem dropWhile_bne {front : List Text} (new : name ∉ front) (back : List Text) :
    (front ++ name :: back).dropWhile (fun other => other != name) = name :: back := by
  rw [List.dropWhile_append_of_pos]
  · simp
  · intro other member
    have different : other ≠ name := by
      rintro rfl
      exact new member
    simpa using different

/-- A path that leads back to a name on it ends with a simple cycle that starts
with the name. -/
theorem Leads.loop (leads : Leads next path names) (member : name ∈ names)
    (onPath : name ∈ path) :
    ∃ front back, path = front ++ name :: back ∧
      path.dropWhile (fun other => other != name) = name :: back ∧
      Simple (Edge next) ((name :: back : List Text) : Cycle Text) := by
  obtain ⟨front, back, rfl, new⟩ := List.eq_append_cons_of_mem onPath
  have whole := leads.linked name member
  refine ⟨front, back, rfl, dropWhile_bne new back, simple_cons ?_ ?_⟩
  · exact leads.distinct.sublist (List.sublist_append_right front _)
  · rw [List.append_assoc] at whole
    exact whole.right_of_append

/-- A path that shows a simple cycle of the graph. -/
def Genuine (next : Text → List Text) (shown : List Text) : Prop :=
  ∃ cycle, Simple (Edge next) cycle ∧ Shows shown cycle

/-- The simple cycle of some names is shown by their canonical form. -/
theorem Simple.shows {related : Text → Text → Prop} (simple : Simple related names) :
    Shows (canonical names) names := by
  refine shows_canonical ?_ (Cycle.nodup_coe_iff.mp simple.distinct)
  rintro rfl
  exact simple.nonempty rfl

/-- A cycle that is closed is noted unless another is taken for it. -/
theorem close_cases (path : List Text) (name : Text) (w : Walk) :
    let shown := canonical (path.dropWhile fun other => other != name)
    (close path name w = w ∧ ∃ other ∈ w.met, Text.join [0] other = Text.join [0] shown) ∨
      (close path name w = { w with met := shown :: w.met } ∧ shown ∉ w.met) := by
  unfold close isMet
  dsimp only
  split
  · rename_i met
    exact .inl ⟨rfl, by simpa using met⟩
  · rename_i unmet
    exact .inr ⟨rfl, fun member => unmet (by simpa using ⟨_, member, rfl⟩)⟩

/-- What is noted where a path leads back to a name on it is a simple cycle
of the graph. -/
theorem Leads.genuine_close (leads : Leads next path (name :: names)) (onPath : name ∈ path)
    (genuine : ∀ shown ∈ w.met, Genuine next shown) :
    ∀ shown ∈ (close path name w).met, Genuine next shown := by
  obtain ⟨front, back, -, loop, simple⟩ := leads.loop List.mem_cons_self onPath
  rcases close_cases path name w with ⟨same, -⟩ | ⟨noted, -⟩
  · rwa [same]
  · rw [noted, loop]
    exact List.forall_mem_cons.mpr ⟨⟨_, simple, simple.shows⟩, genuine⟩

/-- Everything that a walk notes is a simple cycle of the graph. -/
theorem Walks.genuine (walks : Walks next path names w after) (leads : Leads next path names)
    (genuine : ∀ shown ∈ w.met, Genuine next shown) :
    ∀ shown ∈ after.met, Genuine next shown := by
  induction walks with
  | done => exact genuine
  | closes onPath _ inductionHypothesis =>
    exact inductionHypothesis leads.later (leads.genuine_close onPath genuine)
  | passes _ _ _ inductionHypothesis => exact inductionHypothesis leads.later genuine
  | enters offPath _ _ _ insideHypothesis inductionHypothesis =>
    exact inductionHypothesis leads.later (insideHypothesis (leads.enter offPath) genuine)

/-- No walk notes a cycle twice. -/
theorem Walks.nodup_met (walks : Walks next path names w after) (distinct : w.met.Nodup) :
    after.met.Nodup := by
  induction walks with
  | done => exact distinct
  | @closes path names name w after onPath _ inductionHypothesis =>
    refine inductionHypothesis ?_
    rcases close_cases path name w with ⟨same, -⟩ | ⟨noted, new⟩
    · rwa [same]
    · rw [noted]
      exact List.nodup_cons.mpr ⟨new, distinct⟩
  | passes _ _ _ inductionHypothesis => exact inductionHypothesis distinct
  | enters _ _ _ _ insideHypothesis inductionHypothesis =>
    exact inductionHypothesis (insideHypothesis distinct)

end Walks

/-- What shows a simple cycle of the graph follows its edges from the smallest of the
distinct names back to it. -/
theorem Genuine.closed {next : Text → List Text} {shown : List Text}
    (genuine : Genuine next shown) :
    ∃ first rest, shown = first :: rest ++ [first] ∧ (first :: rest).Nodup ∧
      shown.IsChain (Edge next) ∧
      ∀ name ∈ rest, first.before name = true := by
  obtain ⟨_, simple, first, rest, rfl, rfl, least⟩ := genuine
  refine ⟨first, rest, rfl, Cycle.nodup_coe_iff.mp simple.distinct, ?_, least⟩
  exact (Cycle.chain_coe_cons _ first rest).mp simple.linked

/-- The search finds simple cycles of the connection graph only. -/
theorem genuine_of_mem_find {p : Personality} {shown : List Text} (member : shown ∈ find p) :
    Genuine (successors p) shown := by
  obtain ⟨after, walks, found⟩ := walks_find p
  rw [found, List.mem_reverse] at member
  exact walks.genuine (leads_nil _ _) (by simp) shown member

/-- The search finds no cycle twice. -/
theorem nodup_find (p : Personality) : (find p).Nodup := by
  obtain ⟨after, walks, found⟩ := walks_find p
  rw [found, List.nodup_reverse]
  exact walks.nodup_met List.nodup_nil

end Cycles

/-- The paths of the reports are the cycles that were found. -/
theorem Check.map_path_circular (p : Personality) :
    (circular p).map Problem.path = Cycles.find p := by
  rw [circular, List.map_map]
  exact List.map_id _

/-- The check for cycles walks the graph of all connections to the end, in the one way
there is to walk it, and reports what it has met. It reports nothing exactly when no
name leads back to itself. Every report names a cycle of distinct names that are
connected one to the next, from the smallest one, which is its subject, on, and no two
reports name the same path. -/
theorem Check.circular_witnessed (p : Personality) :
    (∃ after, (∀ w, Cycles.Walks (Cycles.successors p) [] (Cycles.nodes p) ⟨[], []⟩ w ↔
      w = after) ∧
      circular p = after.met.reverse.map .circular) ∧
    (circular p = [] ↔ ∀ name, ¬ Relation.TransGen p.Connects name name) ∧
    (∀ problem ∈ circular p, ∃ first rest, problem.path = first :: rest ++ [first] ∧
      problem.subject = first ∧
      (first :: rest).Nodup ∧ problem.path.IsChain p.Connects ∧ ∀ name ∈ rest,
      first.before name = true) ∧
    ((circular p).map Problem.path).Nodup := by
  obtain ⟨after, walks, found⟩ := Cycles.walks_find p
  refine ⟨⟨after, ?_, by rw [circular, found]⟩, circular_eq_nil_iff p, ?_, ?_⟩
  · intro w
    constructor
    · intro other
      exact other.unique walks
    · rintro rfl
      exact walks
  · intro problem member
    obtain ⟨shown, noted, rfl⟩ := List.mem_map.mp member
    obtain ⟨first, rest, rfl, distinct, linked, least⟩ :=
      (Cycles.genuine_of_mem_find noted).closed
    rw [Cycles.edge_successors] at linked
    exact ⟨first, rest, rfl, rfl, distinct, linked, least⟩
  · rw [map_path_circular]
    exact Cycles.nodup_find p

end Persona
