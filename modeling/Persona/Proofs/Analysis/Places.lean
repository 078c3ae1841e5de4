import Mathlib.Data.List.Perm.Basic
import Mathlib.Data.Prod.Lex
import Persona.Analysis.Checks

/-!
# Findings and their places

A list of findings is made from a list of other things, and each finding has a place
there. The place of a name is an index, that of a conflict are two indices. A list is
complete and free of duplicates if it has one finding for every place where there is one,
in the order of the places.

This is kept by all that the checks do with lists: they put lists one after the other,
make something of some of the elements, look at all pairs, and go through the elements of
a list that have lists themselves.
-/

namespace Persona

variable {ι κ α β γ : Type}

/-- What is found, in the order of the places: one finding at each place where there is
something to find. -/
def FoundAt (before : ι → ι → Prop) (finds : ι → α → Prop) (found : List α) : Prop :=
  ∃ located : List (ι × α), located.map Prod.snd = found ∧
    located.Pairwise (fun q r => before q.1 r.1) ∧
    ∀ place a, (place, a) ∈ located ↔ finds place a

namespace FoundAt

variable {before : ι → ι → Prop} {finds : ι → α → Prop} {found : List α}

/-- What is found is found somewhere. -/
theorem mem_iff (findings : FoundAt before finds found) (a : α) :
    a ∈ found ↔ ∃ place, finds place a := by
  obtain ⟨located, rfl, -, places⟩ := findings
  simp [← places]

/-- What is found earlier is found at an earlier place. -/
theorem pairwise (findings : FoundAt before finds found) :
    found.Pairwise fun a b => ∃ i j, finds i a ∧ finds j b ∧ before i j := by
  obtain ⟨located, rfl, ordered, places⟩ := findings
  apply List.pairwise_map.mpr
  refine ordered.imp_of_mem ?_
  intro q r first second less
  exact ⟨q.1, r.1, (places q.1 q.2).mp first, (places r.1 r.2).mp second, less⟩

/-- The same is found where the same is to be found. -/
theorem congr {others : ι → α → Prop} (findings : FoundAt before finds found)
    (same : ∀ i a, finds i a ↔ others i a) :
    FoundAt before others found := by
  obtain ⟨located, values, ordered, places⟩ := findings
  exact ⟨located, values, ordered, fun i a => (places i a).trans (same i a)⟩

/-- There is nothing to find. -/
theorem nil : FoundAt before (fun _ (_ : α) => False) [] := ⟨[], rfl, .nil, by simp⟩

/-- There may be one thing to find, at one place. -/
theorem single (place : ι) (a : α) (condition : Prop) [Decidable condition] :
    FoundAt before (fun i b => i = place ∧ b = a ∧ condition)
      (if condition then [a] else []) := by
  by_cases there : condition
  · rw [if_pos there]
    exact ⟨[(place, a)], rfl, List.pairwise_singleton _ _, by simp [there]⟩
  · rw [if_neg there]
    exact ⟨[], rfl, .nil, by simp [there]⟩

/-- Something is found at some places, and something at later ones. -/
theorem append {later : ι → α → Prop} {more : List α} (first : FoundAt before finds found)
    (second : FoundAt before later more)
    (ordered : ∀ i a j b, finds i a → later j b → before i j) :
    FoundAt before (fun i a => finds i a ∨ later i a) (found ++ more) := by
  obtain ⟨located, rfl, orderedFirst, places⟩ := first
  obtain ⟨locatedLater, rfl, orderedLater, placesLater⟩ := second
  refine ⟨located ++ locatedLater, List.map_append, ?_, ?_⟩
  · apply List.pairwise_append.mpr
    refine ⟨orderedFirst, orderedLater, ?_⟩
    intro q inFirst r inLater
    exact ordered q.1 q.2 r.1 r.2 ((places q.1 q.2).mp inFirst)
      ((placesLater r.1 r.2).mp inLater)
  · intro i a
    rw [List.mem_append, places, placesLater]

/-- Places are renamed in their order. -/
theorem moved {after : κ → κ → Prop} (move : ι → κ)
    (keeps : ∀ i j, before i j → after (move i) (move j))
    (findings : FoundAt before finds found) :
    FoundAt after (fun k a => ∃ i, k = move i ∧ finds i a) found := by
  obtain ⟨located, rfl, ordered, places⟩ := findings
  refine ⟨located.map fun q => (move q.1, q.2), by simp, ?_, ?_⟩
  · apply List.pairwise_map.mpr
    exact ordered.imp (keeps _ _)
  · intro k a
    simp only [List.mem_map, Prod.mk.injEq, Prod.exists, places]
    constructor
    · rintro ⟨i, b, there, rfl, rfl⟩
      exact ⟨i, rfl, there⟩
    · rintro ⟨i, rfl, there⟩
      exact ⟨i, a, there, rfl, rfl⟩

/-- What is made of some of the findings is found where these are. -/
theorem filterMap (make : α → Option β) (findings : FoundAt before finds found) :
    FoundAt before (fun i b => ∃ a, finds i a ∧ make a = some b) (found.filterMap make) := by
  obtain ⟨located, rfl, ordered, places⟩ := findings
  refine ⟨located.filterMap fun q => (make q.2).map (q.1, ·), ?_, ?_, ?_⟩
  · rw [List.map_filterMap, List.filterMap_map]
    congr 1
    funext q
    simp [Function.comp_def]
  · apply List.Pairwise.filterMap _ _ ordered
    intro q r less b made c madeToo
    obtain ⟨x, -, rfl⟩ := Option.map_eq_some_iff.mp made
    obtain ⟨y, -, rfl⟩ := Option.map_eq_some_iff.mp madeToo
    exact less
  · intro i b
    simp only [List.mem_filterMap, Option.map_eq_some_iff, Prod.mk.injEq, Prod.exists, places]
    constructor
    · rintro ⟨j, a, there, c, made, rfl, rfl⟩
      exact ⟨a, there, made⟩
    · rintro ⟨a, there, made⟩
      exact ⟨i, a, there, b, made, rfl, rfl⟩

/-- Something is found in each of some parts, whose places come after one another. -/
theorem flatMap {finds : γ → ι → α → Prop} {make : γ → List α} {parts : List γ}
    (each : ∀ x ∈ parts, FoundAt before (finds x) (make x)) :
    FoundAt (Prod.Lex (· < ·) before) (fun (place : Nat × ι) a =>
      ∃ x, parts[place.1]? = some x ∧ finds x place.2 a)
      (parts.flatMap make) := by
  induction parts with
  | nil => exact FoundAt.nil.congr (by simp)
  | cons x parts inductionHypothesis =>
    obtain ⟨here, elsewhere⟩ := List.forall_mem_cons.mp each
    have first : FoundAt (Prod.Lex (· < ·) before) _ (make x) :=
      here.moved (fun i => (0, i)) fun i j less => .right 0 less
    have others : FoundAt (Prod.Lex (· < ·) before) _ (parts.flatMap make) :=
      (inductionHypothesis elsewhere).moved (fun place => (place.1 + 1, place.2)) (by
        rintro ⟨k, i⟩ ⟨l, j⟩ less
        cases less with
        | left _ _ less => exact .left _ _ (Nat.succ_lt_succ less)
        | right _ less => exact .right _ less)
    have both := first.append others (by
      rintro ⟨k, i⟩ a ⟨l, j⟩ b ⟨_, isFirst, -⟩ ⟨_, isOther, -⟩
      obtain ⟨rfl, -⟩ := Prod.mk.inj isFirst
      obtain ⟨rfl, -⟩ := Prod.mk.inj isOther
      exact .left _ _ (Nat.succ_pos _))
    refine both.congr ?_
    rintro ⟨k, i⟩ a
    cases k with
    | zero => simp
    | succ k => simp

end FoundAt

/-- Every element is found where it is. -/
theorem elements_found (xs : List α) :
    FoundAt (· < ·) (fun (i : Nat) a => xs[i]? = some a) xs := by
  induction xs with
  | nil => exact FoundAt.nil.congr (by simp)
  | cons x xs inductionHypothesis =>
    have later := inductionHypothesis.moved (· + 1) fun i j => Nat.succ_lt_succ
    have both := (FoundAt.single 0 x True).append later (by
      rintro i a j b ⟨rfl, -⟩ ⟨k, rfl, -⟩
      exact Nat.succ_pos k)
    refine both.congr fun i a => ?_
    cases i with
    | zero => simp [eq_comm]
    | succ i => simp

/-- Two places, the earlier one first, come before two others. -/
abbrev PairBefore : Nat × Nat → Nat × Nat → Prop := Prod.Lex (· < ·) (· < ·)

/-- At the two places, the earlier one first, are elements that clash in this way. -/
def Clashing (clash : α → α → β → Prop) (xs : List α) (places : Nat × Nat)
    (found : β) : Prop :=
  places.1 < places.2 ∧ ∃ a b, xs[places.1]? = some a ∧ xs[places.2]? = some b ∧
    clash a b found

/-- The first element is in the pairs with the others. -/
theorem clashing_zero {clash : α → α → β → Prop} {x : α} {xs : List α} {j : Nat} {found : β} :
    Clashing clash (x :: xs) (0, j) found ↔ ∃ i b, j = i + 1 ∧ xs[i]? = some b ∧
    clash x b found := by
  cases j with
  | zero => simp [Clashing]
  | succ i => simp [Clashing]

/-- The other pairs are those of the other elements. -/
theorem clashing_succ {clash : α → α → β → Prop} {x : α} {xs : List α} {i j : Nat}
    {found : β} :
    Clashing clash (x :: xs) (i + 1, j) found ↔ ∃ k, j = k + 1 ∧
    Clashing clash xs (i, k) found := by
  cases j with
  | zero => simp [Clashing]
  | succ k => simp [Clashing]

/-- What is made of the pairs that clash is found where these are. -/
theorem pairs_found {clash : α → α → β → Prop} {make : α × α → Option β}
    (makes : ∀ a b found, make (a, b) = some found ↔ clash a b found) (xs : List α) :
    FoundAt PairBefore (Clashing clash xs) ((pairs xs).filterMap make) := by
  induction xs with
  | nil => exact FoundAt.nil.congr (by simp [Clashing])
  | cons x xs inductionHypothesis =>
    have withFirst := ((elements_found xs).filterMap fun y => make (x, y)).moved (fun i =>
      (0, i + 1))
      fun i j less => (.right 0 (Nat.succ_lt_succ less) : PairBefore (0, i + 1) (0, j + 1))
    have others : FoundAt PairBefore _ ((pairs xs).filterMap make) :=
      inductionHypothesis.moved (fun places => (places.1 + 1, places.2 + 1)) (by
        rintro ⟨i, j⟩ ⟨k, l⟩ less
        cases less with
        | left _ _ less => exact .left _ _ (Nat.succ_lt_succ less)
        | right _ less => exact .right _ (Nat.succ_lt_succ less))
    have both := withFirst.append others (by
      rintro ⟨i, j⟩ a ⟨k, l⟩ b ⟨_, isFirst, -⟩ ⟨_, isOther, -⟩
      obtain ⟨rfl, -⟩ := Prod.mk.inj isFirst
      obtain ⟨rfl, -⟩ := Prod.mk.inj isOther
      exact .left _ _ (Nat.succ_pos _))
    rw [pairs, List.filterMap_append, List.filterMap_map]
    refine both.congr ?_
    rintro ⟨i, j⟩ found
    cases i with
    | zero => simp [clashing_zero, makes]
    | succ i => simp [clashing_succ]

/-- At this index stands this name, after `count` others of its kind, those that were seen
before included. -/
def Occurs (count : Nat) (seen names : List Text) (i : Nat) (name : Text) : Prop :=
  names[i]? = some name ∧ (seen ++ names.take i).count name = count

/-- The first name is where it is. -/
theorem occurs_zero {count : Nat} {seen names : List Text} {first name : Text} :
    Occurs count seen (first :: names) 0 name ↔ name = first ∧ seen.count name = count := by
  simp [Occurs, eq_comm]

/-- The other names are where they are after the first one was seen. -/
theorem occurs_succ {count i : Nat} {seen names : List Text} {first name : Text} :
    Occurs count seen (first :: names) (i + 1) name ↔
      Occurs count (first :: seen) names i name := by
  have moved : (seen ++ first :: names.take i).count name =
      (first :: (seen ++ names.take i)).count name :=
    List.perm_middle.count_eq name
  simp [Occurs, moved]

/-- A name occurs after `count` others if there are more of them. -/
theorem exists_occurs_iff {count : Nat} {seen names : List Text} {name : Text} :
    (∃ i, Occurs count seen names i name) ↔ seen.count name ≤ count ∧
    count < seen.count name + names.count name := by
  induction names generalizing seen with
  | nil => simp [Occurs]
  | cons first names inductionHypothesis =>
    have step : (∃ i, Occurs count seen (first :: names) i name) ↔
        (name = first ∧ seen.count name = count) ∨
          ∃ i, Occurs count (first :: seen) names i name := by
      constructor
      · rintro ⟨i, here⟩
        cases i with
        | zero => exact .inl (occurs_zero.mp here)
        | succ i => exact .inr ⟨i, occurs_succ.mp here⟩
      · rintro (here | ⟨i, there⟩)
        · exact ⟨0, occurs_zero.mpr here⟩
        · exact ⟨i + 1, occurs_succ.mpr there⟩
    rw [step, inductionHypothesis]
    by_cases same : first = name
    · subst same
      rw [List.count_cons_self, List.count_cons_self]
      simp only [true_and]
      omega
    · rw [List.count_cons_of_ne same, List.count_cons_of_ne same]
      simp only [Ne.symm same, false_and, false_or]

/-- A name occurs only once after `count` others. -/
theorem Occurs.not_before {count i j : Nat} {seen names : List Text} {name : Text}
    (first : Occurs count seen names i name) (second : Occurs count seen names j name) :
    ¬ i < j := by
  intro less
  have upTo : names.take (i + 1) = names.take i ++ [name] := by
    rw [List.take_add_one, first.1]
    rfl
  have fewer : (names.take (i + 1)).count name ≤ (names.take j).count name :=
    (List.take_prefix_take_left less).sublist.count_le name
  have firstCount := first.2
  have secondCount := second.2
  rw [List.count_append] at firstCount secondCount
  rw [upTo, List.count_append, List.count_singleton_self] at fewer
  omega

/-- There is one place where a name occurs after `count` others. -/
theorem Occurs.unique {count i j : Nat} {seen names : List Text} {name : Text}
    (first : Occurs count seen names i name)
    (second : Occurs count seen names j name) : i = j :=
  Nat.le_antisymm (Nat.le_of_not_lt (second.not_before first))
    (Nat.le_of_not_lt (first.not_before second))

/-- The names that are asked for, where they occur after `count` others. -/
def occurringNames (asked : Text → Bool) (count : Nat) : (seen names : List Text) → List Text
  | _, [] => []
  | seen, name :: names =>
    (if asked name = true ∧ seen.count name = count then [name] else []) ++
      occurringNames asked count (name :: seen) names

/-- Each occurrence is found. -/
theorem occurringNames_found (asked : Text → Bool) (count : Nat) (seen names : List Text) :
    FoundAt (· < ·) (fun i name => asked name = true ∧ Occurs count seen names i name)
      (occurringNames asked count seen names) := by
  induction names generalizing seen with
  | nil => exact FoundAt.nil.congr (by simp [Occurs])
  | cons first names inductionHypothesis =>
    have later := (inductionHypothesis (first :: seen)).moved (· + 1) fun i j =>
      Nat.succ_lt_succ
    have both :=
      (FoundAt.single 0 first (asked first = true ∧ seen.count first = count)).append later (by
      rintro i a j b ⟨rfl, -⟩ ⟨k, rfl, -⟩
      exact Nat.succ_pos k)
    refine both.congr fun i name => ?_
    cases i with
    | zero =>
      rw [occurs_zero]
      constructor
      · rintro (⟨-, rfl, here⟩ | ⟨k, impossible, -⟩)
        · exact ⟨here.1, rfl, here.2⟩
        · cases impossible
      · rintro ⟨isAsked, rfl, counted⟩
        exact .inl ⟨rfl, rfl, isAsked, counted⟩
    | succ i =>
      rw [occurs_succ]
      constructor
      · rintro (⟨impossible, -⟩ | ⟨k, same, there⟩)
        · cases impossible
        · obtain rfl := Nat.succ.inj same
          exact there
      · intro there
        exact .inr ⟨i, rfl, there⟩

/-- The names that are wanted and occur more than `count` times, each once, in the order
of their occurrences after `count` others. -/
structure Lists (count : Nat) (wanted : Text → Prop) (names found : List Text) : Prop where
  distinct : found.Nodup
  complete : ∀ name, name ∈ found ↔ wanted name ∧ count < names.count name
  ordered : found.Pairwise fun a b => ∀ i j, Occurs count [] names i a →
    Occurs count [] names j b → i < j

/-- Occurrences after `count` others are each listed once. -/
theorem lists_occurringNames (asked : Text → Bool) (count : Nat) (names : List Text) :
    Lists count (fun name => asked name = true) names
      (occurringNames asked count [] names) := by
  have found := occurringNames_found asked count [] names
  constructor
  case distinct =>
    refine found.pairwise.imp ?_
    rintro a b ⟨i, j, ⟨-, first⟩, ⟨-, second⟩, less⟩ rfl
    exact first.not_before second less
  case complete =>
    intro name
    rw [found.mem_iff, exists_and_left, exists_occurs_iff]
    simp
  case ordered =>
    refine found.pairwise.imp ?_
    rintro a b ⟨i, j, ⟨-, first⟩, ⟨-, second⟩, less⟩ k l again againToo
    rwa [again.unique first, againToo.unique second]

/-- Repetitions are occurrences after one other. -/
theorem repetitions_eq (seen names : List Text) :
    repetitions seen names = occurringNames (fun _ => true) 1 seen names := by
  induction names generalizing seen with
  | nil => rfl
  | cons name names inductionHypothesis =>
    rw [repetitions, occurringNames, inductionHypothesis]
    by_cases again : seen.count name = 1
    · simp [again]
    · simp [again]

/-- Names are repeated that are declared at least twice, each once, where it is declared
for the second time. -/
theorem lists_repetitions (names : List Text) :
    Lists 1 (fun _ => True) names (repetitions [] names) := by
  rw [repetitions_eq]
  obtain ⟨distinct, complete, ordered⟩ := lists_occurringNames (fun _ => true) 1 names
  exact ⟨distinct, by simpa using complete, ordered⟩

end Persona
