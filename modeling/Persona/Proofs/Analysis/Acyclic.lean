import Mathlib.Data.List.Basic
import Mathlib.Data.List.Perm.Subperm
import Mathlib.Logic.Relation
import Persona.Analysis.Cycles

/-!
# Walks meet a cycle exactly when there is one

The walk over the connection graph is a fold of single steps, both from the roots and
from the successors of a node. Where the graph has no cycle no step can close one,
because every name on the path leads to the name that is looked at. Where no step has
closed a cycle, the finished names are in an order in which every name comes before
its successors, and such an order leaves no room for a cycle.
-/

namespace Persona.Cycles

open Relation (TransGen ReflTransGen)

/-- An edge of the graph. -/
def Edge (next : Text → List Text) (a b : Text) : Prop := b ∈ next a

/-- No name leads back to itself. -/
def Acyclic (next : Text → List Text) : Prop := ∀ a, ¬ TransGen (Edge next) a a

/-- What a walk does with one name it is led to: close a cycle, pass by, or go on
from there. -/
def step (next : Text → List Text) (fuel : Nat) (path : List Text) (w : Walk)
    (name : Text) : Walk :=
  if path.contains name then close path name w
  else if w.finished.contains name then w
  else visit next fuel path name w

section Walks

variable {next : Text → List Text} {fuel : Nat} {path : List Text} {name : Text} {w : Walk}

/-- Walking on from a name is a fold of steps over its successors. -/
theorem visit_succ : visit next (fuel + 1) path name w =
    { (next name).foldl (step next fuel (path ++ [name])) w with
      finished := name :: ((next name).foldl (step next fuel (path ++ [name])) w).finished
      } := rfl

/-- Closing a cycle leaves a cycle that was met. -/
theorem close_met_ne_nil : (close path name w).met ≠ [] := by
  unfold close
  dsimp only
  split
  · rename_i met
    intro none
    simp [isMet, none] at met
  · simp

/-- A step keeps a cycle met if walking on does. -/
theorem step_met_ne_nil (visits : (visit next fuel path name w).met ≠ []) (met : w.met ≠ []) :
    (step next fuel path w name).met ≠ [] := by
  unfold step
  split
  · exact close_met_ne_nil
  split
  · exact met
  · exact visits

/-- Walking on keeps a cycle met. -/
theorem visit_met_ne_nil (met : w.met ≠ []) : (visit next fuel path name w).met ≠ [] := by
  induction fuel generalizing path name w with
  | zero => exact met
  | succ fuel inductionHypothesis =>
    rw [visit_succ]
    exact List.foldlRecOn (motive := fun (w : Walk) => w.met ≠ []) (next name) _ met
      fun _ met _ _ =>
      step_met_ne_nil (inductionHypothesis met) met

/-- A cycle that was met stays met. -/
theorem foldl_met_ne_nil (names : List Text) (met : w.met ≠ []) :
    (names.foldl (step next fuel path) w).met ≠ [] :=
  List.foldlRecOn (motive := fun (w : Walk) => w.met ≠ []) names _ met fun _ met _ _ =>
    step_met_ne_nil (visit_met_ne_nil met) met

/-- A step meets no cycle on a graph without cycles, because the path leads
to the name. -/
theorem step_met_of_acyclic (acyclic : Acyclic next)
    (leads : ∀ a ∈ path, TransGen (Edge next) a name)
    (visits : (visit next fuel path name w).met = w.met) :
    (step next fuel path w name).met = w.met := by
  have offPath : name ∉ path := fun onPath => acyclic name (leads name onPath)
  rw [step, if_neg (by simpa using offPath)]
  split
  · rfl
  · exact visits

/-- Walking on meets no cycle on a graph without cycles. -/
theorem visit_met_of_acyclic (acyclic : Acyclic next)
    (leads : ∀ a ∈ path, TransGen (Edge next) a name) :
    (visit next fuel path name w).met = w.met := by
  induction fuel generalizing path name w with
  | zero => rfl
  | succ fuel inductionHypothesis =>
    have onward (b : Text) (edge : b ∈ next name) : ∀ a ∈ path ++ [name],
        TransGen (Edge next) a b := by
      intro a onPath
      rcases List.mem_append.mp onPath with before | last
      · exact (leads a before).tail edge
      · obtain rfl := List.mem_singleton.mp last
        exact .single edge
    rw [visit_succ]
    exact List.foldlRecOn (motive := fun (after : Walk) => after.met = w.met) (next name) _
      rfl fun after same b edge =>
      (step_met_of_acyclic acyclic (onward b edge)
        (inductionHypothesis (onward b edge))).trans same

/-- Every name comes before its successors. -/
def Ordered (next : Text → List Text) : List Text → Prop
  | [] => True
  | name :: later => (∀ b ∈ next name, b ∈ later) ∧ Ordered next later

/-- The successors of an ordered name are among the ordered names. -/
theorem Ordered.successor {names : List Text} (ordered : Ordered next names) {a b : Text}
    (member : a ∈ names) (edge : b ∈ next a) : b ∈ names := by
  induction names with
  | nil => cases member
  | cons first later inductionHypothesis =>
    rcases List.mem_cons.mp member with rfl | inLater
    · exact List.mem_cons_of_mem a (ordered.1 b edge)
    · exact List.mem_cons_of_mem first (inductionHypothesis ordered.2 inLater)

/-- What an ordered name leads to is among the ordered names. -/
theorem Ordered.closed {names : List Text} (ordered : Ordered next names) {a b : Text}
    (member : a ∈ names) (leads : ReflTransGen (Edge next) a b) : b ∈ names := by
  induction leads with
  | refl => exact member
  | tail _ edge inductionHypothesis => exact ordered.successor inductionHypothesis edge

/-- A name in an order is on no cycle. -/
theorem Ordered.acyclic {names : List Text} (ordered : Ordered next names) {a : Text}
    (member : a ∈ names) :
    ¬ TransGen (Edge next) a a := by
  induction names with
  | nil => cases member
  | cons first later inductionHypothesis =>
    intro cycle
    have inLater : a ∈ later := by
      rcases List.mem_cons.mp member with rfl | inLater
      · obtain ⟨b, edge, back⟩ := TransGen.head'_iff.mp cycle
        exact ordered.2.closed (ordered.1 b edge) back
      · exact inLater
    exact inductionHypothesis ordered.2 inLater cycle

/-- What a walk achieves when it meets no cycle: the finished names are still in order,
none is forgotten, and every name that was looked at is finished. -/
structure Finishes (next : Text → List Text) (w : Walk) (names : List Text) (after : Walk) :
    Prop where
  ordered : Ordered next after.finished
  kept : w.finished ⊆ after.finished
  finished : names ⊆ after.finished

/-- Steps that finish their names finish all of them. -/
theorem foldl_finishes {names : List Text} (ordered : Ordered next w.finished)
    (unmet : (names.foldl (step next fuel path) w).met = [])
    (steps : ∀ b ∈ names, ∀ w, Ordered next w.finished → (step next fuel path w b).met = [] →
      Finishes next w [b] (step next fuel path w b)) :
    Finishes next w names (names.foldl (step next fuel path) w) := by
  induction names generalizing w with
  | nil => exact ⟨ordered, List.Subset.refl _, List.nil_subset _⟩
  | cons first names inductionHypothesis =>
    have firstUnmet : (step next fuel path w first).met = [] :=
      not_not.mp fun met => foldl_met_ne_nil names met unmet
    have done := steps first List.mem_cons_self w ordered firstUnmet
    have others := inductionHypothesis done.ordered unmet fun b member =>
      steps b (List.mem_cons_of_mem first member)
    exact ⟨others.ordered, List.Subset.trans done.kept others.kept,
      List.cons_subset.mpr ⟨others.kept (done.finished List.mem_cons_self), others.finished⟩⟩

/-- A step that meets no cycle finishes its name, if walking on does. -/
theorem step_finishes (ordered : Ordered next w.finished)
    (unmet : (step next fuel path w name).met = [])
    (visits : name ∉ path → (visit next fuel path name w).met = [] →
      Finishes next w [name] (visit next fuel path name w)) :
    Finishes next w [name] (step next fuel path w name) := by
  unfold step at unmet ⊢
  split
  · rename_i onPath
    rw [if_pos onPath] at unmet
    exact absurd unmet close_met_ne_nil
  rename_i offPath
  rw [if_neg offPath] at unmet
  split
  · rename_i finished
    exact ⟨ordered, List.Subset.refl _, by simpa using finished⟩
  · rename_i unfinished
    rw [if_neg unfinished] at unmet
    exact visits (by simpa using offPath) unmet

/-- Walking on from a name finishes it when no cycle is met. The names on the path are
distinct names of the graph, so the fuel is not used up before all of them are on it. -/
theorem visit_finishes {all : List Text} (closed : ∀ a ∈ all, ∀ b ∈ next a, b ∈ all)
    (distinct : (path ++ [name]).Nodup) (known : path ++ [name] ⊆ all)
    (enough : all.length ≤ fuel + path.length)
    (ordered : Ordered next w.finished) (unmet : (visit next fuel path name w).met = []) :
    Finishes next w [name] (visit next fuel path name w) := by
  induction fuel generalizing path name w with
  | zero =>
    have fits := (distinct.subperm known).length_le
    rw [List.length_append, List.length_singleton] at fits
    omega
  | succ fuel inductionHypothesis =>
    rw [visit_succ] at unmet ⊢
    have inGraph : name ∈ all := known (by simp)
    have successors := foldl_finishes ordered unmet fun b edge w ordered unmet =>
      step_finishes ordered unmet fun offPath unmet => by
        refine inductionHypothesis ?_ ?_ ?_ ordered unmet
        · rw [List.nodup_append]
          refine ⟨distinct, by simp, fun a onPath c last same => ?_⟩
          obtain rfl := List.mem_singleton.mp last
          exact offPath (same ▸ onPath)
        · exact List.append_subset.mpr ⟨known, by simpa using closed name inGraph b edge⟩
        · rw [List.length_append, List.length_singleton]
          omega
    exact ⟨⟨fun b edge => successors.finished edge, successors.ordered⟩,
      List.Subset.trans successors.kept (List.subset_cons_self _ _), by simp⟩

end Walks

/-- Both ends of a connection are nodes. -/
theorem mem_nodes {p : Personality} {c : Connection} (member : c ∈ p.connections) :
    c.source ∈ nodes p ∧ c.target ∈ nodes p := by
  simp only [nodes, List.mem_eraseDups, List.mem_append, List.mem_flatMap]
  exact ⟨.inr ⟨c, member, by simp⟩, .inr ⟨c, member, by simp⟩⟩

/-- An edge of the graph is a connection. -/
theorem edge_iff (p : Personality) (a b : Text) :
    Edge (successors p) a b ↔ ∃ c ∈ p.connections, c.source = a ∧ c.target = b := by
  simp [Edge, successors, and_assoc]

/-- The successors of a node are nodes. -/
theorem successors_subset (p : Personality) :
    ∀ a ∈ nodes p, ∀ b ∈ successors p a, b ∈ nodes p := by
  intro a _ b edge
  obtain ⟨c, member, -, rfl⟩ := (edge_iff p a b).mp edge
  exact (mem_nodes member).2

/-- No cycle is found exactly when the connection graph has none. -/
theorem find_eq_nil_iff (p : Personality) : find p = [] ↔ Acyclic (successors p) := by
  have folded : find p =
    ((nodes p).foldl (step (successors p) (nodes p).length []) ⟨[], []⟩).met.reverse := rfl
  rw [folded, List.reverse_eq_nil_iff]
  constructor
  · intro unmet
    have finishes := foldl_finishes (w := ⟨[], []⟩) trivial unmet
      fun b member w ordered unmet =>
      step_finishes ordered unmet fun _ unmet =>
        visit_finishes (successors_subset p) (by simp) (by simpa using member) (by simp)
          ordered unmet
    intro a cycle
    obtain ⟨b, edge, -⟩ := TransGen.head'_iff.mp cycle
    obtain ⟨c, member, rfl, -⟩ := (edge_iff p a b).mp edge
    exact finishes.ordered.acyclic (finishes.finished (mem_nodes member).1) cycle
  · intro acyclic
    exact List.foldlRecOn (motive := fun (w : Walk) => w.met = []) (nodes p) _ rfl
      fun w none b _ =>
      (step_met_of_acyclic acyclic (by simp) (visit_met_of_acyclic acyclic (by simp))).trans
        none

end Persona.Cycles
