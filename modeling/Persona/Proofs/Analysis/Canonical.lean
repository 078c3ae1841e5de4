import Mathlib.Data.List.Cycle
import Persona.Analysis.Cycles

/-!
# How a cycle is shown

A cycle has no first name, so a list of its names is one of several. It is shown from
its smallest name on, with that name repeated at the end. Since the names are distinct
and any two of them can be compared, every cycle is shown in exactly one way, and two
different cycles are never shown alike.

Cycles are those of the library: lists up to rotation.
-/

namespace Persona

namespace Text

/-- No text comes before itself. -/
theorem before_irrefl (a : Text) : a.before a = false := by
  induction a with
  | nil => rfl
  | cons byte a inductionHypothesis => simpa [before] using inductionHypothesis

/-- A text comes before what a later one comes before. -/
theorem before_trans {a b c : Text} (first : a.before b = true)
    (second : b.before c = true) : a.before c = true := by
  induction a generalizing b c with
  | nil =>
    cases b with
    | nil => simp [before] at first
    | cons y b =>
      cases c with
      | nil => simp [before] at second
      | cons z c => rfl
  | cons x a inductionHypothesis =>
    cases b with
    | nil => simp [before] at first
    | cons y b =>
      cases c with
      | nil => simp [before] at second
      | cons z c =>
        simp only [before] at first second ⊢
        split_ifs at first second ⊢ <;> grind

/-- Of two different texts one comes before the other. -/
theorem before_or_before {a b : Text} (different : a ≠ b) :
    a.before b = true ∨ b.before a = true := by
  induction a generalizing b with
  | nil =>
    cases b with
    | nil => exact absurd rfl different
    | cons y b => exact .inl rfl
  | cons x a inductionHypothesis =>
    cases b with
    | nil => exact .inr rfl
    | cons y b =>
      simp only [before]
      by_cases same : x = y
      · subst same
        simpa using inductionHypothesis fun rest => different (by rw [rest])
      · simp only [same, Ne.symm same, if_false, decide_eq_true_eq]
        grind

/-- Two texts do not come before each other. -/
theorem not_before {a b : Text} (first : a.before b = true) : b.before a = false := by
  by_contra second
  have loop := before_trans first (Bool.eq_true_of_not_eq_false second)
  exact Bool.false_ne_true ((before_irrefl a).symm.trans loop)

end Text

namespace Cycles

/-- The place is that of a name which none of the others comes before. -/
def IsSmallest (names : List Text) (best : Text × Nat) : Prop :=
  (∃ front back, names = front ++ best.1 :: back ∧ best.2 = front.length) ∧ ∀ name ∈ names,
    name.before best.1 = false

/-- Looking at one more name keeps the smallest of those looked at. -/
theorem IsSmallest.step {names : List Text} {best : Text × Nat}
    (smallest : IsSmallest names best) (name : Text) :
    IsSmallest (names ++ [name])
      (if name.before best.1 then (name, names.length) else best) := by
  obtain ⟨⟨front, back, split, place⟩, least⟩ := smallest
  split
  · rename_i smaller
    refine ⟨⟨names, [], rfl, rfl⟩, ?_⟩
    intro other member
    rcases List.mem_append.mp member with earlier | last
    · by_contra before
      have sooner := Text.before_trans (Bool.eq_true_of_not_eq_false before) smaller
      exact Bool.false_ne_true ((least other earlier).symm.trans sooner)
    · obtain rfl := List.mem_singleton.mp last
      exact Text.before_irrefl other
  · rename_i notSmaller
    refine ⟨⟨front, back ++ [name], by simp [split], place⟩, ?_⟩
    intro other member
    rcases List.mem_append.mp member with earlier | last
    · exact least other earlier
    · obtain rfl := List.mem_singleton.mp last
      exact Bool.eq_false_of_not_eq_true notSmaller

/-- Looking at more names, each with its place, keeps the smallest of those looked at. -/
theorem IsSmallest.foldl {names : List Text} {best : Text × Nat}
    (smallest : IsSmallest names best)
    (more : List Text) : IsSmallest (names ++ more) ((more.zipIdx names.length).foldl
      (fun (best : Text × Nat) (name, place) =>
      if name.before best.1 then (name, place) else best) best) := by
  induction more generalizing names best with
  | nil => simpa using smallest
  | cons name more inductionHypothesis =>
    have further := inductionHypothesis (smallest.step name)
    simpa using further

/-- The smallest of some names has its place among them. -/
theorem smallest_cases {names : List Text} (nonempty : names ≠ []) :
    ∃ front first back, names = front ++ first :: back ∧ smallest names = front.length ∧
      ∀ name ∈ names, name.before first = false := by
  cases names with
  | nil => exact absurd rfl nonempty
  | cons name more =>
    have alone : IsSmallest [name] (name, 0) :=
      ⟨⟨[], [], rfl, rfl⟩, by simp [Text.before_irrefl]⟩
    obtain ⟨⟨front, back, split, place⟩, least⟩ := alone.foldl more
    refine ⟨front, _, back, split, ?_, least⟩
    simpa [smallest, Text.before_irrefl] using place

/-- The names are those of the cycle in its order, from the smallest one on, which is
repeated at the end. -/
def Shows (path : List Text) (cycle : Cycle Text) : Prop :=
  ∃ first rest, path = first :: rest ++ [first] ∧
    ((first :: rest : List Text) : Cycle Text) = cycle ∧
    ∀ name ∈ rest, first.before name = true

/-- The canonical form of distinct names shows their cycle. -/
theorem shows_canonical {names : List Text} (nonempty : names ≠ []) (distinct : names.Nodup) :
    Shows (canonical names) names := by
  obtain ⟨front, first, back, rfl, place, least⟩ := smallest_cases nonempty
  have rotated : (front ++ first :: back).rotateLeft front.length =
      first :: back ++ front := by
    cases front with
    | nil => cases back <;> simp [List.rotateLeft]
    | cons name front => simp [List.rotateLeft, Nat.mod_eq_of_lt]
  refine ⟨first, back ++ front, ?_, ?_, ?_⟩
  · simp [canonical, place, rotated]
  · rw [Cycle.coe_eq_coe]
    exact (List.isRotated_append : List.IsRotated ((first :: back) ++ front)
      (front ++ first :: back))
  · intro name member
    have other : name ≠ first := by
      rintro rfl
      grind
    have notBefore : name.before first = false := least name (by grind)
    rcases Text.before_or_before other with before | after
    · exact absurd (notBefore.symm.trans before) Bool.false_ne_true
    · exact after

/-- A path shows one cycle only. -/
theorem Shows.cycle_eq {path : List Text} {cycle other : Cycle Text} (shows : Shows path cycle)
    (shows' : Shows path other) : cycle = other := by
  obtain ⟨first, rest, rfl, rfl, -⟩ := shows
  obtain ⟨first', rest', same, rfl, -⟩ := shows'
  obtain ⟨rfl, sameRest⟩ := List.cons.inj same
  rw [List.append_cancel_right sameRest]

/-- Distinct names that are rotated so that the same one comes first are not
rotated at all. -/
theorem eq_of_isRotated {first : Text} {rest others : List Text}
    (distinct : (first :: rest).Nodup)
    (rotated : (first :: rest).IsRotated (first :: others)) : rest = others := by
  obtain ⟨places, rotated⟩ := rotated
  rw [← List.rotate_mod] at rotated
  have bound : places % (first :: rest).length < (first :: rest).length :=
    Nat.mod_lt _ (by simp)
  have head : (first :: rest)[places % (first :: rest).length]? = (first :: rest)[0]? := by
    rw [← List.head?_rotate bound, rotated]
    rfl
  have unmoved : places % (first :: rest).length = 0 :=
    (List.getElem?_inj bound distinct).mp head
  rw [unmoved, List.rotate_zero] at rotated
  exact (List.cons.inj rotated).2

/-- A cycle of distinct names is shown by one path only. -/
theorem Shows.path_eq {path other : List Text} {cycle : Cycle Text} (distinct : cycle.Nodup)
    (shows : Shows path cycle) (shows' : Shows other cycle) : path = other := by
  obtain ⟨first, rest, rfl, rfl, least⟩ := shows
  obtain ⟨first', rest', rfl, same, least'⟩ := shows'
  rw [Cycle.nodup_coe_iff] at distinct
  have rotated := Cycle.coe_eq_coe.mp same.symm
  -- Each of the two first names is somewhere on the other path, so neither comes before
  -- the other.
  have heads : first = first' := by
    by_contra different
    have inRest : first' ∈ rest := by
      have member := rotated.mem_iff.mpr (List.mem_cons_self : first' ∈ first' :: rest')
      exact (List.mem_cons.mp member).resolve_left (Ne.symm different)
    have inRest' : first ∈ rest' := by
      have member := rotated.mem_iff.mp (List.mem_cons_self : first ∈ first :: rest)
      exact (List.mem_cons.mp member).resolve_left different
    have after := Text.not_before (least first' inRest)
    exact Bool.false_ne_true (after.symm.trans (least' first inRest'))
  subst heads
  rw [eq_of_isRotated distinct rotated]

/-- The name that ends a cycle and the one that starts it are neighbours, wherever the
cycle is shown from. -/
theorem Shows.neighbours {path back : List Text} {a b : Text}
    (shows : Shows path (b :: back : List Text))
    (last : (b :: back).getLast? = some a) : [a, b] <:+: path := by
  obtain ⟨first, rest, rfl, same, -⟩ := shows
  obtain ⟨front, ending⟩ := List.getLast?_eq_some_iff.mp last
  -- To be neighbours on the path is a relation that links the cycle, and whether a
  -- relation links a cycle
  -- does not depend on where the cycle starts.
  have linked : Cycle.Chain (fun x y => [x, y] <:+: first :: rest ++ [first])
      (first :: rest : List Text) := by
    rw [Cycle.chain_coe_cons, List.isChain_iff_forall_rel_of_append_cons_cons]
    intro x y before behind split
    exact ⟨before, behind, by simp [split]⟩
  rw [same, Cycle.chain_coe_cons, List.isChain_iff_forall_rel_of_append_cons_cons] at linked
  apply linked
  show b :: back ++ [b] = front ++ a :: b :: []
  rw [ending]
  simp

end Cycles

end Persona
