import Persona.Personality.Signature
import Persona.Proofs.Number.Numeral

/-!
# Cutting a signature

A signature is read backwards by cutting it at its marks: at the first parenthesis, at the
last comma, at an arrow. A cut is the only one where the mark cannot stand elsewhere,
which is sure of a byte that one side does not hold and, for longer marks, depends on the
texts on both sides. Numbers, units and counts never hold a comma, so they are always cut
off in one way.
-/

namespace Persona

namespace Text

variable {x y u v : Text} {b : UInt8}

/-- A text is cut at the first of a byte in one way. -/
theorem cut_first (fresh : b ∉ x) (otherFresh : b ∉ y) (same : x ++ b :: u = y ++ b :: v) :
    x = y ∧ u = v := by
  induction x generalizing y with
  | nil =>
    cases y with
    | nil => exact ⟨rfl, (List.cons.inj same).2⟩
    | cons c y =>
      exact absurd (List.cons.inj same).1 fun first => otherFresh (first ▸ List.mem_cons_self)
  | cons c x inductionHypothesis =>
    cases y with
    | nil =>
      exact absurd (List.cons.inj same).1.symm fun first => fresh (first ▸ List.mem_cons_self)
    | cons d y =>
      obtain ⟨rfl, rest⟩ := List.cons.inj same
      obtain ⟨rfl, after⟩ :=
        inductionHypothesis (fun member => fresh (List.mem_cons_of_mem _ member))
        (fun member => otherFresh (List.mem_cons_of_mem _ member)) rest
      exact ⟨rfl, after⟩

/-- A text is cut at the last of a byte in one way. -/
theorem cut_last (fresh : b ∉ u) (otherFresh : b ∉ v) (same : x ++ b :: u = y ++ b :: v) :
    x = y ∧ u = v := by
  have mirrored : u.reverse ++ b :: x.reverse = v.reverse ++ b :: y.reverse := by
    simpa using congrArg List.reverse same
  obtain ⟨after, before⟩ := cut_first (by simpa using fresh) (by simpa using otherFresh)
    mirrored
  exact ⟨List.reverse_injective before, List.reverse_injective after⟩

end Text

section Marks

variable {mark x x' y y' z : Text}

/-- No mark begins inside a text and ends inside a mark that stands behind it. -/
def Clear (mark z : Text) : Prop :=
  ∀ part rest, part ++ rest = mark → part ≠ [] → rest ≠ [] → rest <+: mark → ¬ part <:+ z

/-- A mark that starts no later than another either is that one or stands in
front of it. -/
theorem exists_of_mark_append (clear : Clear mark (z ++ x)) (some : x ≠ [])
    (same : mark ++ y' = x ++ (mark ++ y)) :
    ∃ second, x = mark ++ second ∧ y' = second ++ (mark ++ y) := by
  rcases List.append_eq_append_iff.mp same with ⟨second, split, after⟩ | ⟨rest, split, after⟩
  · exact ⟨second, split, after⟩
  · -- Here the second mark begins inside the first, which only happens if it is the first.
    by_cases whole : rest = []
    · subst whole
      rw [List.append_nil] at split
      subst split
      exact ⟨[], (List.append_nil _).symm, after.symm⟩
    · have begins : rest <+: mark :=
        List.prefix_of_prefix_length_le ⟨y', after.symm⟩ (List.prefix_append mark y)
          (by simp [split])
      exact absurd (List.suffix_append z x) (clear x rest split.symm some whole begins)

/-- Two ways to cut a text at a mark are one, or one of them cuts the other's first or
second part. -/
theorem cut_cases (clear : Clear mark x) (otherClear : Clear mark x')
    (same : x' ++ (mark ++ y') = x ++ (mark ++ y)) :
    (x' = x ∧ y' = y) ∨ (∃ second, x = x' ++ (mark ++ second) ∧ y' = second ++ (mark ++ y)) ∨
      ∃ first, y = first ++ (mark ++ y') ∧ x' = x ++ (mark ++ first) := by
  rcases List.append_eq_append_iff.mp same with ⟨between, split, after⟩ |
      ⟨between, split, after⟩
  · by_cases none : between = []
    · subst none
      exact .inl ⟨by simpa using split.symm, by simpa using after⟩
    · obtain ⟨second, rfl, rest⟩ := exists_of_mark_append (split ▸ clear) none after
      exact .inr (.inl ⟨second, split, rest⟩)
  · by_cases none : between = []
    · subst none
      exact .inl ⟨by simpa using split, by simpa using after.symm⟩
    · obtain ⟨first, rfl, rest⟩ := exists_of_mark_append (split ▸ otherClear) none after
      exact .inr (.inr ⟨first, rest, split⟩)

end Marks

/-- Among the values that are whole, the value is the only one with its signature. -/
def Identified {α : Type} (whole : α → Prop) (signature : α → Text) (value : α) : Prop :=
  ∀ other, whole other → signature other = signature value → other = value

/-- The text is the signature of a whole value. -/
def Shown {α : Type} (whole : α → Prop) (signature : α → Text) (text : Text) : Prop :=
  ∃ value, whole value ∧ signature value = text

/-- The text with the mark between `before` and `after` can also be cut at another mark,
into a first and a second part of the given kinds. -/
def Forks (mark : Text) (left right : Text → Prop) (before after : Text) : Prop :=
  (∃ first second, before = first ++ (mark ++ second) ∧ left first ∧
    right (second ++ (mark ++ after))) ∨
  ∃ first second, after = first ++ (mark ++ second) ∧ left (before ++ (mark ++ first)) ∧
    right second

section Pairs

variable {α β γ : Type} {mark : Text} {leftWhole : α → Prop} {left : α → Text}
    {rightWhole : β → Prop}
  {right : β → Text} {whole : γ → Prop} {signature : γ → Text} {pair : α → β → γ}

/-- Values that are made of two parts and shown with a mark between them. -/
structure ShownAsPairs (mark : Text) (leftWhole : α → Prop) (left : α → Text)
    (rightWhole : β → Prop)
    (right : β → Text) (whole : γ → Prop) (signature : γ → Text) (pair : α → β → γ) :
    Prop where
  injective : ∀ {a b c d}, pair a b = pair c d → a = c ∧ b = d
  parts : ∀ value, whole value → ∃ a b, value = pair a b
  whole_iff : ∀ {a b}, whole (pair a b) ↔ leftWhole a ∧ rightWhole b
  shown : ∀ a b, signature (pair a b) = left a ++ (mark ++ right b)

/-- A value made of two parts is told by its signature exactly if each part is told by its
own and the mark can be found in one way only. -/
theorem ShownAsPairs.identified_iff
    (pairs : ShownAsPairs mark leftWhole left rightWhole right whole signature pair)
    (visible : mark ≠ [])
    (clear : ∀ a, Clear mark (left a)) {a : α} {b : β} (fits : whole (pair a b)) :
    Identified whole signature (pair a b) ↔
      Identified leftWhole left a ∧ Identified rightWhole right b ∧
        ¬ Forks mark (Shown leftWhole left) (Shown rightWhole right) (left a) (right b) := by
  obtain ⟨leftFits, rightFits⟩ := pairs.whole_iff.mp fits
  constructor
  · intro identified
    have same {c : α} {d : β} (leftOther : leftWhole c) (rightOther : rightWhole d)
        (cut : left c ++ (mark ++ right d) = left a ++ (mark ++ right b)) : c = a ∧ d = b := by
      have shown : signature (pair c d) = signature (pair a b) := by
        rw [pairs.shown, pairs.shown, cut]
      exact pairs.injective (identified _ (pairs.whole_iff.mpr ⟨leftOther, rightOther⟩) shown)
    refine ⟨fun other otherFits equal => ?_, fun other otherFits equal => ?_, ?_⟩
    · exact (same otherFits rightFits (by rw [equal])).1
    · exact (same leftFits otherFits (by rw [equal])).2
    · -- A fork makes another value; were it the same one, a part would be longer than itself
      -- by the mark.
      have longer := List.length_pos_of_ne_nil visible
      rintro (⟨_, second, split, ⟨c, fitsFirst, rfl⟩, d, fitsSecond, rest⟩ |
        ⟨first, _, split, ⟨c, fitsFirst, rest⟩, d, fitsSecond, rfl⟩)
      · obtain ⟨rfl, -⟩ := same fitsFirst fitsSecond (by simp [split, rest])
        have lengths := congrArg List.length split
        simp only [List.length_append] at lengths
        omega
      · obtain ⟨-, rfl⟩ := same fitsFirst fitsSecond (by simp [split, rest])
        have lengths := congrArg List.length split
        simp only [List.length_append] at lengths
        omega
  · rintro ⟨leftIdentified, rightIdentified, unforked⟩ other otherFits same
    obtain ⟨c, d, rfl⟩ := pairs.parts other otherFits
    obtain ⟨fitsFirst, fitsSecond⟩ := pairs.whole_iff.mp otherFits
    rw [pairs.shown, pairs.shown] at same
    rcases cut_cases (clear a) (clear c) same with ⟨first, second⟩ |
        ⟨second, split, after⟩ | ⟨first, split, after⟩
    · rw [leftIdentified c fitsFirst first, rightIdentified d fitsSecond second]
    · exact absurd (.inl ⟨_, second, split, ⟨c, fitsFirst, rfl⟩, d, fitsSecond, after⟩)
        unforked
    · exact absurd (.inr ⟨first, _, split, ⟨c, fitsFirst, after⟩, d, fitsSecond, rfl⟩) unforked

end Pairs

/-- A comma with its blank does not overlap another. -/
theorem clear_comma (z : Text) : Clear ", " z := by
  intro part rest split _ some begins
  rw [show Text.ofString ", " = [44, 32] from rfl] at split begins
  match part, rest, split with
  | [_], [_], split => simp_all
  | [_, _], [], _ => exact absurd rfl some
  | [], [_, _], _ => contradiction

/-- Two texts with a comma between them can be told apart exactly if neither holds a comma
with a blank. -/
theorem cut_comma_iff (x y : Text) :
    (∀ x' y' : Text, x' ++ (Text.ofString ", " ++ y') = x ++ (Text.ofString ", " ++ y) →
      x' = x ∧ y' = y) ↔
      ¬ Text.ofString ", " <:+: x ∧ ¬ Text.ofString ", " <:+: y := by
  constructor
  · intro cut
    refine ⟨?_, ?_⟩
    · rintro ⟨first, second, rfl⟩
      have same := (cut first (second ++ (", " ++ y)) (by simp)).1
      simp [show Text.ofString ", " = [44, 32] from rfl] at same
    · rintro ⟨first, second, rfl⟩
      have same := (cut (x ++ (", " ++ first)) second (by simp)).1
      simp [show Text.ofString ", " = [44, 32] from rfl] at same
  · rintro ⟨none, noneAfter⟩ x' y' same
    rcases cut_cases (clear_comma x) (clear_comma x') same with both | ⟨second, rfl, -⟩ |
        ⟨first, rfl, -⟩
    · exact both
    · exact absurd ⟨x', second, by simp⟩ none
    · exact absurd ⟨first, y', by simp⟩ noneAfter

/-- No comma is used to write a number. -/
theorem Binary64.comma_notMem_text (x : Binary64) : 44 ∉ x.text :=
  fun member => absurd ((Layout.write_numeric Layout.plain x).1 44 member) (by decide)

/-- A number is told by its text. -/
theorem Binary64.text_injective : Function.Injective Binary64.text := by
  intro x y same
  have reads (z : Binary64) : read? z.text = some z := by
    cases z with
    | nan => decide
    | infinity negative => cases negative <;> decide
    | finite negative code => exact read?_write Layout.plain _ rfl
  exact Option.some.inj (by rw [← reads x, same, reads y])

/-- An integer is written with digits and a minus sign. -/
theorem Text.ofInt_bytes (n : Int) : ∀ b ∈ ofInt n, isDigitByte b = true ∨ b = 45 := by
  intro b member
  cases n with
  | ofNat m => exact .inl (ofNat_digits m b member)
  | negSucc m =>
    rcases List.mem_cons.mp member with rfl | inDigits
    · exact .inr rfl
    · exact .inl (ofNat_digits (m + 1) b inDigits)

/-- No comma is used to write an integer. -/
theorem Text.comma_notMem_ofInt (n : Int) : 44 ∉ ofInt n :=
  fun member => absurd (ofInt_bytes n 44 member) (by decide)

/-- An integer is told by its numeral. -/
theorem Text.ofInt_injective : Function.Injective ofInt := by
  have unsigned (n m : Nat) : 45 :: ofNat m ≠ ofNat n := fun same =>
    absurd (ofNat_digits n 45 (same ▸ List.mem_cons_self)) (by decide)
  have natural {n m : Nat} (same : ofNat n = ofNat m) : n = m := by
    rw [← digitsValue_ofNat n, same, digitsValue_ofNat m]
  intro x y same
  cases x with
  | ofNat n =>
    cases y with
    | ofNat m => rw [natural same]
    | negSucc m => exact absurd same.symm (unsigned n (m + 1))
  | negSucc n =>
    cases y with
    | ofNat m => exact absurd same (unsigned m (n + 1))
    | negSucc m => rw [Nat.succ.inj (natural (List.cons.inj same).2)]

/-- No comma is used to write a listed unit. -/
theorem TimeUnit.comma_notMem_text : ∀ unit ∈ TimeUnit.all, 44 ∉ unit.text := by decide

/-- A listed unit is told by its word. -/
theorem TimeUnit.text_inj : ∀ unit ∈ TimeUnit.all, ∀ other ∈ TimeUnit.all,
    unit.text = other.text → unit = other := by
  decide

/-- The text in front of the first parenthesis. -/
def head (text : Text) : Text := text.takeWhile (· != 40)

/-- The head of an application is its constructor. -/
theorem head_application {constructor : Text} (fresh : 40 ∉ constructor)
    (arguments : List Text) :
    head (application constructor arguments) = constructor := by
  have each : ∀ b ∈ constructor, (b != 40) = true := by
    rintro b member
    exact bne_iff_ne.mpr fun same => fresh (same ▸ member)
  rw [head, application, List.append_assoc, List.append_assoc,
    List.takeWhile_append_of_pos each]
  exact List.append_nil _

/-- Applications of one constructor are the same exactly if their arguments are. -/
theorem application_inj {constructor : Text} {xs ys : List Text} :
    application constructor xs = application constructor ys ↔
      Text.join ", " xs = Text.join ", " ys := by
  simp [application]

section Arguments

variable {constructor x y u v x' y' : Text}

/-- Two arguments are joined by a comma. -/
theorem application_two_inj :
    application constructor [x', y'] = application constructor [x, y] ↔
    x' ++ (Text.ofString ", " ++ y') = x ++ (Text.ofString ", " ++ y) := by
  rw [application_inj]
  simp [Text.join]

variable (fresh : 44 ∉ u) (otherFresh : 44 ∉ v)

include fresh otherFresh

/-- What holds no comma is behind the last one. -/
theorem last_inj (same : x ++ (Text.ofString ", " ++ u) = y ++ (Text.ofString ", " ++ v)) :
    x = y ∧ u = v := by
  have cut (z w : Text) : z ++ (Text.ofString ", " ++ w) = z ++ 44 :: 32 :: w := rfl
  rw [cut, cut] at same
  obtain ⟨before, after⟩ := Text.cut_last (by simpa using fresh) (by simpa using otherFresh)
    same
  exact ⟨before, (List.cons.inj after).2⟩

/-- Two arguments can be told apart where the second holds no comma. -/
theorem last_of_two
    (same : application constructor [x, u] = application constructor [y, v]) : x = y ∧ u = v :=
  last_inj fresh otherFresh (application_two_inj.mp same)

/-- The last of three arguments can be told from the others where it holds no comma. -/
theorem last_of_three
    (same : application constructor [x, y, u] = application constructor [x', y', v]) :
    application constructor [x, y] = application constructor [x', y'] ∧ u = v := by
  have joined : x ++ (Text.ofString ", " ++ y) ++ (Text.ofString ", " ++ u) =
      x' ++ (Text.ofString ", " ++ y') ++ (Text.ofString ", " ++ v) := by
    simpa [Text.join] using application_inj.mp same
  obtain ⟨before, after⟩ := last_inj fresh otherFresh joined
  exact ⟨application_two_inj.mpr before, after⟩

end Arguments

end Persona
