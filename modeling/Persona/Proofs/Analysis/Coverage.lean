import Persona.Proofs.Analysis.Walk
import Persona.Proofs.Artifact.Framing

/-!
# Which cycles are met

A walk does not enter a name again that it has finished with, so it does not close every
cycle of the graph. It closes those whose names it follows one after the other, and it
follows enough of them: the connections on no cycle that was met lead from each name to
names that were finished before it, and so are on no cycle at all. Every cycle therefore
has a connection in common with one that was met, and a cycle that has none in common
with any other is met itself.

All this needs names without zero bytes. Cycles are told apart by their names joined with
zero bytes, so where a name holds one, a cycle can be taken for another and left out.
-/

namespace Persona

/-- Joined by zero bytes, the parts lack only the last one of those that frame them. -/
theorem Artifact.framed_eq_join {parts : List Text} (nonempty : parts ≠ []) :
    framed parts = Text.join [0] parts ++ [0] := by
  induction parts with
  | nil => exact absurd rfl nonempty
  | cons part parts inductionHypothesis =>
    cases parts with
    | nil => simp [framed, Text.join]
    | cons next parts =>
      rw [framed_cons, inductionHypothesis (by simp)]
      simp [Text.join]

/-- Lists of names without zero bytes are told apart by their names joined with
zero bytes. -/
theorem Text.join_zero_inj {names others : List Text} (nonempty : names ≠ [])
    (nonempty' : others ≠ [])
    (plain : ∀ name ∈ names, 0 ∉ name) (plain' : ∀ name ∈ others, 0 ∉ name)
    (same : join [0] others = join [0] names) : others = names := by
  refine Artifact.eq_of_framed_eq plain plain' ?_
  rw [Artifact.framed_eq_join nonempty, Artifact.framed_eq_join nonempty', same]

namespace Cycles

section Walks

variable {next : Text → List Text} {path names : List Text} {name : Text} {w after : Walk}

/-- To every name but the first of a chain another one is related. -/
theorem exists_related {related : Text → Text → Prop} {a b : Text} {names : List Text}
    (linked : (a :: names).IsChain related) (member : b ∈ names) : ∃ c, related c b := by
  induction names generalizing a with
  | nil => cases member
  | cons name names inductionHypothesis =>
    obtain ⟨first, others⟩ := List.isChain_cons_cons.mp linked
    rcases List.mem_cons.mp member with rfl | later
    · exact ⟨a, first⟩
    · exact inductionHypothesis others later

/-- Where an edge leads to a name only if it holds no zero byte, no name on a
cycle holds one. -/
theorem Genuine.plain {shown : List Text} (genuine : Genuine next shown)
    (plain : ∀ a, ∀ b ∈ next a, 0 ∉ b) :
    ∀ name ∈ shown, 0 ∉ name := by
  obtain ⟨first, rest, rfl, -, linked, -⟩ := genuine.closed
  intro name member
  have entered : name ∈ rest ++ [first] := by simpa [or_comm] using member
  obtain ⟨before, edge⟩ := exists_related linked entered
  exact plain before name edge

/-- What shows a cycle is not empty. -/
theorem Genuine.ne_nil {shown : List Text} (genuine : Genuine next shown) : shown ≠ [] := by
  obtain ⟨first, rest, rfl, -⟩ := genuine.closed
  simp

/-- Closing a cycle forgets none. -/
theorem met_subset_close (path : List Text) (name : Text) (w : Walk) :
    w.met ⊆ (close path name w).met := by
  rcases close_cases path name w with ⟨same, -⟩ | ⟨noted, -⟩
  · rw [same]
    exact List.Subset.refl _
  · rw [noted]
    exact List.subset_cons_self _ _

/-- Closing a cycle finishes no name. -/
theorem finished_close (path : List Text) (name : Text) (w : Walk) :
    (close path name w).finished = w.finished := by
  rcases close_cases path name w with ⟨same, -⟩ | ⟨noted, -⟩
  · rw [same]
  · rw [noted]

/-- What a walk relies on: edges lead to names without zero bytes only, the path leads to
the names that are still to be looked at, and what is noted are simple cycles. -/
structure Proper (next : Text → List Text) (path names : List Text) (w : Walk) : Prop where
  plain : ∀ a, ∀ b ∈ next a, 0 ∉ b
  leads : Leads next path names
  genuine : ∀ shown ∈ w.met, Genuine next shown

/-- Nothing is amiss before the first name is looked at. -/
theorem proper_nil (plain : ∀ a, ∀ b ∈ next a, 0 ∉ b) (names : List Text) :
    Proper next [] names ⟨[], []⟩ :=
  ⟨plain, leads_nil next names, by simp⟩

/-- Nothing is amiss where a name is entered. -/
theorem Proper.enter (proper : Proper next path (name :: names) w) (offPath : name ∉ path) :
    Proper next (path ++ [name]) (next name) w :=
  ⟨proper.plain, proper.leads.enter offPath, proper.genuine⟩

/-- Nothing is amiss after a name has been looked at. -/
theorem Proper.later {between : Walk} (proper : Proper next path (name :: names) w)
    (looks : Walks next path [name] w between) : Proper next path names between := by
  refine ⟨proper.plain, proper.leads.later,
    looks.genuine ⟨proper.leads.distinct, ?_⟩ proper.genuine⟩
  simpa using proper.leads.linked name List.mem_cons_self

/-- A cycle is noted where it is closed, unless it was before: no other is
taken for it. -/
theorem Proper.noted (proper : Proper next path (name :: names) w) (onPath : name ∈ path) :
    canonical (path.dropWhile fun other => other != name) ∈ (close path name w).met := by
  obtain ⟨front, back, -, loop, simple⟩ := proper.leads.loop List.mem_cons_self onPath
  have genuine : Genuine next (canonical (path.dropWhile fun other => other != name)) := by
    rw [loop]
    exact ⟨_, simple, simple.shows⟩
  rcases close_cases path name w with ⟨unchanged, other, member, same⟩ | ⟨noted, -⟩
  · have otherGenuine := proper.genuine other member
    have equal := Text.join_zero_inj genuine.ne_nil otherGenuine.ne_nil
      (genuine.plain proper.plain)
      (otherGenuine.plain proper.plain) same
    rw [unchanged, ← equal]
    exact member
  · rw [noted]
    exact List.mem_cons_self

/-- A walk forgets nothing. -/
theorem Walks.kept (walks : Walks next path names w after) :
    w.met ⊆ after.met ∧ w.finished ⊆ after.finished := by
  induction walks with
  | done => exact ⟨List.Subset.refl _, List.Subset.refl _⟩
  | @closes path _ name w _ _ _ inductionHypothesis =>
    obtain ⟨met, finished⟩ := inductionHypothesis
    rw [finished_close] at finished
    exact ⟨List.Subset.trans (met_subset_close path name w) met, finished⟩
  | passes _ _ _ inductionHypothesis => exact inductionHypothesis
  | enters _ _ _ _ insideHypothesis inductionHypothesis =>
    obtain ⟨met, finished⟩ := inductionHypothesis
    exact ⟨List.Subset.trans insideHypothesis.1 met,
      List.Subset.trans insideHypothesis.2
        (List.Subset.trans (List.subset_cons_self _ _) finished)⟩

/-- Every name that is looked at is on the path or gets finished. -/
theorem Walks.looked (walks : Walks next path names w after) :
    ∀ b ∈ names, b ∈ path ∨ b ∈ after.finished := by
  induction walks with
  | done => simp
  | closes onPath _ inductionHypothesis =>
    exact List.forall_mem_cons.mpr ⟨.inl onPath, inductionHypothesis⟩
  | passes _ finished others inductionHypothesis =>
    exact List.forall_mem_cons.mpr ⟨.inr (others.kept.2 finished), inductionHypothesis⟩
  | enters _ _ _ others _ inductionHypothesis =>
    exact List.forall_mem_cons.mpr ⟨.inr (others.kept.2 List.mem_cons_self),
      inductionHypothesis⟩

/-- Every name that is looked at and is on the path closes a cycle that is noted. -/
theorem Walks.closed (walks : Walks next path names w after)
    (proper : Proper next path names w) :
    ∀ b ∈ names, b ∈ path → canonical (path.dropWhile fun other =>
      other != b) ∈ after.met := by
  induction walks with
  | done => simp
  | closes onPath others inductionHypothesis =>
    refine List.forall_mem_cons.mpr ⟨fun _ =>
      ?_, inductionHypothesis (proper.later (.closes onPath (.done ..)))⟩
    exact others.kept.1 (proper.noted onPath)
  | passes offPath finished _ inductionHypothesis =>
    refine List.forall_mem_cons.mpr ⟨fun onPath => absurd onPath offPath, ?_⟩
    exact inductionHypothesis (proper.later (.passes offPath finished (.done ..)))
  | enters offPath unfinished inside _ _ inductionHypothesis =>
    refine List.forall_mem_cons.mpr ⟨fun onPath => absurd onPath offPath, ?_⟩
    exact inductionHypothesis (proper.later (.enters offPath unfinished inside (.done ..)))

/-- The successors of a name that do not follow it on any of the cycles. -/
def unclosed (next : Text → List Text) (met : List (List Text)) (a : Text) : List Text :=
  (next a).filter fun b => !met.any fun shown => decide ([a, b] <:+: shown)

/-- An edge is left out exactly when one of the cycles has it. -/
theorem mem_unclosed {met : List (List Text)} {a b : Text} :
    b ∈ unclosed next met a ↔ b ∈ next a ∧ ∀ shown ∈ met, ¬ [a, b] <:+: shown := by
  simp [unclosed]

/-- An order in which every name comes before its successors stays one when some of them
are taken away. -/
theorem Ordered.mono {fewer : Text → List Text} (ordered : Ordered next names)
    (among : ∀ a, fewer a ⊆ next a) :
    Ordered fewer names := by
  induction names with
  | nil => trivial
  | cons name names inductionHypothesis =>
    exact ⟨fun b member => ordered.1 b (among name member), inductionHypothesis ordered.2⟩

/-- The more cycles were met, the fewer edges are on none of them. -/
theorem unclosed_anti {met more : List (List Text)} (kept : met ⊆ more) (a : Text) :
    unclosed next more a ⊆ unclosed next met a := by
  intro b member
  obtain ⟨edge, free⟩ := mem_unclosed.mp member
  exact mem_unclosed.mpr ⟨edge, fun shown noted => free shown (kept noted)⟩

/-- A name that is entered comes before those successors that follow it on no cycle that
was met: the others have been finished, or they are on the path and close a cycle on which
they follow it. -/
theorem Walks.before_unclosed {inner : Walk}
    (inside : Walks next (path ++ [name]) (next name) w inner)
    (proper : Proper next (path ++ [name]) (next name) w) :
    ∀ b ∈ unclosed next inner.met name, b ∈ inner.finished := by
  intro b member
  obtain ⟨edge, free⟩ := mem_unclosed.mp member
  rcases inside.looked b edge with onPath | finished
  · have noted := inside.closed proper b edge onPath
    obtain ⟨front, back, split, loop, simple⟩ := proper.leads.loop edge onPath
    rw [loop] at noted
    have last : (b :: back).getLast? = some name := by
      have ending := congrArg List.getLast? split
      rw [List.getLast?_concat, List.getLast?_append_cons] at ending
      exact ending.symm
    exact absurd (simple.shows.neighbours last) (free _ noted)
  · exact finished

/-- The finished names are in an order in which every name comes before those successors
that follow it on no cycle that was met. -/
theorem Walks.ordered (walks : Walks next path names w after)
    (proper : Proper next path names w) (ordered : Ordered (unclosed next w.met) w.finished) :
    Ordered (unclosed next after.met) after.finished := by
  induction walks with
  | done => exact ordered
  | @closes path _ name w _ onPath _ inductionHypothesis =>
    apply inductionHypothesis (proper.later (.closes onPath (.done ..)))
    rw [finished_close]
    exact ordered.mono (unclosed_anti (met_subset_close path name w))
  | passes offPath finished _ inductionHypothesis =>
    exact inductionHypothesis (proper.later (.passes offPath finished (.done ..))) ordered
  | enters offPath unfinished inside _ insideHypothesis inductionHypothesis =>
    apply inductionHypothesis (proper.later (.enters offPath unfinished inside (.done ..)))
    exact ⟨inside.before_unclosed (proper.enter offPath),
      insideHypothesis (proper.enter offPath) ordered⟩

/-- Every cycle through a name that was looked at has an edge in common with a cycle
that was met. -/
theorem Walks.shares (walks : Walks next [] names ⟨[], []⟩ after)
    (plain : ∀ a, ∀ b ∈ next a, 0 ∉ b) {first : Text} {rest : List Text}
    (start : first ∈ names) (linked : (first :: rest ++ [first]).IsChain (Edge next)) :
    ∃ shown ∈ after.met, ∃ a b, [a, b] <:+: first :: rest ++ [first] ∧ [a, b] <:+: shown := by
  by_contra apart
  push Not at apart
  have free : (first :: (rest ++ [first])).IsChain (Edge (unclosed next after.met)) := by
    rw [List.isChain_iff_forall_rel_of_append_cons_cons] at linked ⊢
    intro a b before behind split
    refine mem_unclosed.mpr ⟨linked split, ?_⟩
    intro shown noted
    exact apart shown noted a b ⟨before, behind, by simp [split]⟩
  have finished : first ∈ after.finished := by
    rcases walks.looked first start with onPath | finished
    · cases onPath
    · exact finished
  have ordered := walks.ordered (proper_nil plain names) trivial
  apply ordered.acyclic finished
  cases rest with
  | nil => exact .single (List.isChain_cons_cons.mp free).1
  | cons second rest =>
    obtain ⟨edge, others⟩ := List.isChain_cons_cons.mp free
    exact .head' edge (List.relationReflTransGen_of_exists_isChain_cons _ others (by simp))

/-- The walk that looks at names from the end of a path comes to follow another path:
that which a name it enters continues, one that it follows inside there, or one that it
follows later. -/
inductive Follows (next : Text → List Text) : (path names : List Text) → Walk →
    (trail : List Text) → Prop where
  | enters {path names : List Text} {name : Text} {w : Walk} (offPath : name ∉ path)
      (unfinished : name ∉ w.finished) :
      Follows next path (name :: names) w (path ++ [name])
  | inside {path names trail : List Text} {name : Text} {w : Walk} (offPath : name ∉ path)
      (unfinished : name ∉ w.finished) (follows : Follows next (path ++ [name]) (next name)
        w trail) :
      Follows next path (name :: names) w trail
  | later {path names trail : List Text} {name : Text} {w after : Walk}
      (looks : Walks next path [name] w after)
      (follows : Follows next path names after trail) :
        Follows next path (name :: names) w trail

/-- A walk that looks at several names looks at the first one and then at the others. -/
theorem Walks.split (walks : Walks next path (name :: names) w after) :
    ∃ between, Walks next path [name] w between ∧ Walks next path names between after := by
  cases walks with
  | closes onPath others => exact ⟨_, .closes onPath (.done ..), others⟩
  | passes offPath finished others => exact ⟨_, .passes offPath finished (.done ..), others⟩
  | enters offPath unfinished inside others =>
    exact ⟨_, .enters offPath unfinished inside (.done ..), others⟩

/-- What is shown is a cycle whose names end the path or one that the walk
comes to follow. -/
def Followed (next : Text → List Text) (path names : List Text) (w : Walk)
    (shown : List Text) : Prop :=
  ∃ trail loop : List Text, (trail = path ∨ Follows next path names w trail) ∧
    loop <:+ trail ∧ Shows shown loop

/-- What is followed inside a name is followed. -/
theorem Followed.inside {shown : List Text} (offPath : name ∉ path)
    (unfinished : name ∉ w.finished)
    (followed : Followed next (path ++ [name]) (next name) w shown) :
    Followed next path (name :: names) w shown := by
  obtain ⟨trail, loop, rfl | follows, ends, shows⟩ := followed
  · exact ⟨_, loop, .inr (.enters offPath unfinished), ends, shows⟩
  · exact ⟨trail, loop, .inr (.inside offPath unfinished follows), ends, shows⟩

/-- What is followed after the first name is followed. -/
theorem Followed.later {shown : List Text} {between : Walk}
    (looks : Walks next path [name] w between)
    (followed : Followed next path names between shown) :
    Followed next path (name :: names) w shown := by
  obtain ⟨trail, loop, same | follows, ends, shows⟩ := followed
  · exact ⟨trail, loop, .inl same, ends, shows⟩
  · exact ⟨trail, loop, .inr (.later looks follows), ends, shows⟩

/-- What a walk notes it has followed. -/
theorem Walks.followed (walks : Walks next path names w after)
    (leads : Leads next path names) {shown : List Text}
    (noted : shown ∈ after.met) : shown ∈ w.met ∨ Followed next path names w shown := by
  induction walks with
  | done => exact .inl noted
  | @closes path names name w after onPath _ inductionHypothesis =>
    rcases inductionHypothesis leads.later noted with closed | followed
    · obtain ⟨front, back, split, loop, simple⟩ := leads.loop List.mem_cons_self onPath
      rcases close_cases path name w with ⟨same, -⟩ | ⟨new, -⟩
      · rw [same] at closed
        exact .inl closed
      · rw [new, loop] at closed
        rcases List.mem_cons.mp closed with rfl | before
        · exact .inr ⟨path, name :: back, .inl rfl, ⟨front, split.symm⟩, simple.shows⟩
        · exact .inl before
    · exact .inr (.later (.closes onPath (.done ..)) followed)
  | passes offPath finished _ inductionHypothesis =>
    rcases inductionHypothesis leads.later noted with before | followed
    · exact .inl before
    · exact .inr (.later (.passes offPath finished (.done ..)) followed)
  | enters offPath unfinished inside _ insideHypothesis inductionHypothesis =>
    rcases inductionHypothesis leads.later noted with within | followed
    · rcases insideHypothesis (leads.enter offPath) within with before | followed
      · exact .inl before
      · exact .inr (.inside offPath unfinished followed)
    · exact .inr (.later (.enters offPath unfinished inside (.done ..)) followed)

/-- A walk that enters a name notes every simple cycle that the path, continued with the
name, ends with. -/
theorem Walks.noted_of_suffix {inner : Walk}
    (inside : Walks next (path ++ [name]) (next name) w inner)
    (proper : Proper next (path ++ [name]) (next name) w) {loop : List Text}
    (ends : loop <:+ path ++ [name])
    (simple : Simple (Edge next) loop) : canonical loop ∈ inner.met := by
  cases loop with
  | nil => exact absurd rfl simple.nonempty
  | cons first rest =>
    obtain ⟨front, whole⟩ := ends
    have onPath : first ∈ path ++ [name] := by simp [← whole]
    have new : first ∉ front := by
      intro earlier
      have distinct := proper.leads.distinct
      rw [← whole, List.nodup_append] at distinct
      exact distinct.2.2 first earlier first List.mem_cons_self rfl
    obtain ⟨most, ending⟩ : ∃ most, first :: rest = most ++ [name] := by
      have last := congrArg List.getLast? whole
      rw [List.getLast?_concat, List.getLast?_append_cons] at last
      exact List.getLast?_eq_some_iff.mp last
    have edge : first ∈ next name := by
      have linked := (Cycle.chain_coe_cons _ first rest).mp simple.linked
      rw [List.isChain_iff_forall_rel_of_append_cons_cons] at linked
      apply linked
      show first :: rest ++ [first] = most ++ name :: first :: []
      rw [ending]
      simp
    have noted := inside.closed proper first edge onPath
    rwa [← whole, dropWhile_bne new] at noted

/-- A walk notes every cycle whose names end a path that it follows. -/
theorem Follows.noted {trail loop : List Text} (follows : Follows next path names w trail)
    (walks : Walks next path names w after) (proper : Proper next path names w)
    (ends : loop <:+ trail)
    (simple : Simple (Edge next) loop) : canonical loop ∈ after.met := by
  induction follows generalizing after with
  | enters offPath unfinished =>
    cases walks with
    | closes onPath _ => exact absurd onPath offPath
    | passes _ finished _ => exact absurd finished unfinished
    | enters _ _ inside others =>
      exact others.kept.1 (inside.noted_of_suffix (proper.enter offPath) ends simple)
  | inside offPath unfinished _ inductionHypothesis =>
    cases walks with
    | closes onPath _ => exact absurd onPath offPath
    | passes _ finished _ => exact absurd finished unfinished
    | enters _ _ inside others =>
      have noted := inductionHypothesis inside (proper.enter offPath) ends
      exact others.kept.1 noted
  | later looks _ inductionHypothesis =>
    obtain ⟨between, first, others⟩ := walks.split
    obtain rfl := looks.unique first
    exact inductionHypothesis others (proper.later looks) ends

end Walks

variable {p : Personality} {path : List Text} {cycle : Cycle Text}

/-- Edges lead to the targets of connections. -/
theorem plain_successors (plain : ∀ c ∈ p.connections, 0 ∉ c.target) :
    ∀ a, ∀ b ∈ successors p a, 0 ∉ b := by
  intro a b edge
  obtain ⟨c, member, -, rfl⟩ := (edge_iff p a b).mp edge
  exact plain c member

/-- A simple cycle is found exactly when its names, from some name on, end a path that the
walk follows. -/
theorem mem_find_iff (plain : ∀ c ∈ p.connections, 0 ∉ c.target)
    (simple : Simple (Edge (successors p)) cycle)
    (shows : Shows path cycle) : path ∈ find p ↔ ∃ trail loop : List Text,
      Follows (successors p) [] (nodes p) ⟨[], []⟩ trail ∧ loop <:+ trail ∧
      (loop : Cycle Text) = cycle := by
  obtain ⟨after, walks, found⟩ := walks_find p
  rw [found, List.mem_reverse]
  constructor
  · intro noted
    rcases walks.followed (leads_nil _ _) noted with before |
        ⟨trail, loop, start | follows, ends, shows'⟩
    · cases before
    · -- The walk starts from the empty path, which ends with no cycle.
      rw [start, List.suffix_nil] at ends
      subst ends
      exact absurd (shows.cycle_eq shows') simple.nonempty
    · exact ⟨trail, loop, follows, ends, shows'.cycle_eq shows⟩
  · rintro ⟨trail, loop, follows, ends, rfl⟩
    rw [shows.path_eq simple.distinct simple.shows]
    exact follows.noted walks (proper_nil (plain_successors plain) _) ends simple

/-- Every cycle has a connection in common with one that is found. -/
theorem find_shares (plain : ∀ c ∈ p.connections, 0 ∉ c.target)
    (genuine : Genuine (successors p) path) :
    ∃ shown ∈ find p, ∃ a b, [a, b] <:+: path ∧ [a, b] <:+: shown := by
  obtain ⟨after, walks, found⟩ := walks_find p
  obtain ⟨first, rest, rfl, -, linked, -⟩ := genuine.closed
  obtain ⟨before, edge⟩ := exists_related linked (by simp : first ∈ rest ++ [first])
  obtain ⟨c, member, -, rfl⟩ := (edge_iff p before first).mp edge
  simpa [found] using walks.shares (plain_successors plain) (mem_nodes member).2 linked

end Cycles

namespace Check

open Cycles

/-- What is reported of the cycles of the connection graph, as long as no connection leads
to a name with a zero byte. No simple cycle is reported twice, and exactly those are
reported whose names, from some name on, end a path that the search follows. Every simple
cycle has a connection in common with one that is reported, so one that has none in common
with any other is reported exactly once. -/
theorem circular_covers (p : Personality) (plain : ∀ c ∈ p.connections, 0 ∉ c.target)
    (cycle : Cycle Text)
    (simple : Simple p.Connects cycle) (path : List Text) (shows : Shows path cycle) :
    ((circular p).map Problem.path).count path ≤ 1 ∧
    (((circular p).map Problem.path).count path = 1 ↔ ∃ trail loop : List Text,
      Follows (successors p) [] (nodes p) ⟨[], []⟩ trail ∧ loop <:+ trail ∧
      (loop : Cycle Text) = cycle) ∧
    (∃ problem ∈ circular p, ∃ a b, [a, b] <:+: path ∧ [a, b] <:+: problem.path) ∧
    ((∀ other shown, Simple p.Connects other → Shows shown other →
        (∃ a b, [a, b] <:+: path ∧ [a, b] <:+: shown) → other = cycle) →
      ((circular p).map Problem.path).count path = 1) := by
  rw [← edge_successors] at simple ⊢
  have atMostOnce := List.nodup_iff_count_le_one.mp (nodup_find p) path
  have once : (find p).count path = 1 ↔ path ∈ find p := by
    rw [← List.count_pos_iff]
    omega
  obtain ⟨shown, found, common⟩ := find_shares plain ⟨cycle, simple, shows⟩
  rw [map_path_circular, once]
  refine ⟨atMostOnce, mem_find_iff plain simple shows, ?_, ?_⟩
  · exact ⟨.circular shown, List.mem_map_of_mem found, common⟩
  · intro alone
    obtain ⟨other, simple', shows'⟩ := genuine_of_mem_find found
    obtain rfl := alone other shown simple' shows' common
    rw [shows.path_eq simple.distinct shows']
    exact found

end Check

instance (p : Personality) (a b : Text) : Decidable (p.Connects a b) :=
  inferInstanceAs (Decidable (∃ c ∈ p.connections, c.source = a ∧ c.target = b))

/-- A personality that has nothing but domains and connections from them. -/
def Personality.web (domains : List (Text × List Text)) : Personality where
  name := "web"
  traits := []
  knowledge := domains.map fun (name, targets) =>
    ⟨name, [], targets.map fun target => ⟨name, target, .ofRatio false 1 2, none⟩⟩
  behaviors := []
  evolution := []

namespace Check

open Cycles

/-- A domain that leads to two others, which lead back to it. -/
def crossing : Personality := .web [("a", ["b", "c"]), ("b", ["a"]), ("c", ["a"])]

/-- Every simple cycle of that graph goes from the one domain to another and back. -/
theorem crossing_cycles {cycle : Cycle Text} {path : List Text}
    (simple : Simple crossing.Connects cycle) (shows : Shows path cycle) :
    ∃ name ∈ (["b", "c"] : List Text), path = (["a", name, "a"] : List Text) ∧
      cycle = (["a", name] : List Text) := by
  have edges : ∀ x y, crossing.Connects x y → (x = "a" ∧ y ∈ (["b", "c"] : List Text)) ∨
      x ∈ (["b", "c"] : List Text) ∧ y = "a" := by
    rintro _ _ ⟨c, member, rfl, rfl⟩
    revert c
    decide +kernel
  obtain ⟨first, rest, rfl, rfl, least⟩ := shows
  have distinct := Cycle.nodup_coe_iff.mp simple.distinct
  have linked := (Cycle.chain_coe_cons _ first rest).mp simple.linked
  cases rest with
  | nil =>
    rcases edges _ _ (List.isChain_cons_cons.mp linked).1 with ⟨rfl, member⟩ | ⟨member, rfl⟩
    all_goals exact absurd member (by decide)
  | cons second others =>
    obtain ⟨out, back⟩ := List.isChain_cons_cons.mp linked
    rcases edges _ _ out with ⟨rfl, member⟩ | ⟨member, rfl⟩
    · cases others with
      | nil => exact ⟨second, member, rfl, rfl⟩
      | cons third others =>
        -- Both of the others lead back only, so the first name would come again.
        rcases edges _ _ (List.isChain_cons_cons.mp back).1 with ⟨rfl, -⟩ | ⟨-, rfl⟩
        all_goals simp at distinct
    · -- The least name comes first.
      have later : ∀ name ∈ (["b", "c"] : List Text), name.before "a" = false := by decide
      have before := least "a" List.mem_cons_self
      rw [later first member] at before
      cases before

/-- Two cycles that have a name but no connection in common are both reported, each
of them once. -/
theorem circular_covers_crossing : (∀ c ∈ crossing.connections, 0 ∉ c.target) ∧
    ∀ name ∈ (["b", "c"] : List Text),
      Simple crossing.Connects (["a", name] : List Text) ∧
      ((circular crossing).map Problem.path).count (["a", name, "a"] : List Text) = 1 := by
  have plain : ∀ c ∈ crossing.connections, 0 ∉ c.target := by decide +kernel
  refine ⟨plain, fun name member => ?_⟩
  have linked : ∀ name ∈ (["b", "c"] : List Text), (["a", name] : List Text).Nodup ∧
      (["a", name, "a"] : List Text).IsChain crossing.Connects ∧
        Text.before "a" name = true := by
    decide +kernel
  obtain ⟨distinct, chained, least⟩ := linked name member
  have simple : Simple crossing.Connects (["a", name] : List Text) :=
    simple_cons distinct chained
  have shows : Shows (["a", name, "a"] : List Text) (["a", name] : List Text) :=
    ⟨"a", [name], rfl, rfl, by simpa using least⟩
  obtain ⟨-, -, -, alone⟩ := circular_covers crossing plain _ simple _ shows
  refine ⟨simple, alone fun other shown simple' shows' common => ?_⟩
  obtain ⟨another, -, rfl, rfl⟩ := crossing_cycles simple' shows'
  obtain ⟨x, y, here, there⟩ := common
  have same : name = another := by
    simp [List.infix_cons_iff] at here there
    grind
  rw [same]

/-- A domain that leads to another one directly and by way of a third, where the other
leads back. -/
def tangled : Personality := .web [("a", ["b", "c"]), ("b", ["a"]), ("c", ["b"])]

/-- The names of two domains with a zero byte between them. -/
def both : Text := Text.join [0] ["b", "c"]

/-- A domain that leads back to itself by way of two others, and by way of one whose name
is theirs joined. -/
def spliced : Personality := .web [("a", ["b", both]), ("b", ["c"]), ("c", ["a"]),
      (both, ["a"])]

/-- Two simple cycles that are not reported: one that no path of the search ends with, and
one that is taken for another. -/
theorem circular_overlooks :
    (∃ cycle : Cycle Text, Simple tangled.Connects cycle ∧ Shows ["a", "c", "b", "a"] cycle ∧
      ((circular tangled).map Problem.path).count (["a", "c", "b", "a"] : List Text) = 0) ∧
    (∃ cycle : Cycle Text, Simple spliced.Connects cycle ∧ Shows ["a", both, "a"] cycle ∧
      ((circular spliced).map Problem.path).count (["a", both, "a"] : List Text) = 0) := by
  refine ⟨⟨("a" :: ["c", "b"] : List Text), ?_, ?_, ?_⟩,
    ⟨("a" :: [both] : List Text), ?_, ?_, ?_⟩⟩
  · exact simple_cons (by decide +kernel) (by decide +kernel)
  · exact ⟨"a", ["c", "b"], rfl, rfl, by decide +kernel⟩
  · decide +kernel
  · exact simple_cons (by decide +kernel) (by decide +kernel)
  · exact ⟨"a", [both], rfl, rfl, by decide +kernel⟩
  · decide +kernel

end Check

end Persona
