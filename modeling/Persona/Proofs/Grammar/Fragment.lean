import Persona.Proofs.Grammar.Rules
import Persona.Proofs.Personality.Repair

/-!
# Fragments read back

A modifier, a condition, an action, a trigger and an effect that stand alone in a
text are read to the end of it. What is shown here is that the printed form of a part
is read as the part, with nothing left and nothing recorded, and that the repaired
printed form is read as the repaired part.
-/

namespace Persona.Fragment

open Grammar

/-- A text that spells exactly the tokens a parser takes is read as one part. -/
theorem read_spelled {α : Type} (what : Text) {p : Parser α} {levels : Nat} {text : Text}
    {spellings : List Spelling} {value : α}
    (reads : Reads p levels (spellings ++ []) (· = value) [])
    (room : (levels : Int) ≤ defaultLimit) (isOpen : text.Open spellings) :
    Fragment.read what p text = ⟨[], .ok value⟩ := by
  rw [List.append_nil] at reads
  have ended : Reads (whole what p) levels spellings (· = value) [] := by
    refine Reads.andThen reads (Reads.bind Reads.current fun token shown => ?_)
    rw [if_pos (show token.kind = .endOfInput from shown.kind)]
    exact Reads.pure rfl
  obtain ⟨stream, scanned, -, read⟩ := ended.scan isOpen.spells (.inr room)
  simp [Fragment.read, scanned, read]

/-- The text of a modifier is the modifier. -/
theorem modifier_written {m : Modifier} {text : Text} (printable : m.Printable)
    (written : m.write = .ok text) :
    Fragment.modifier text = ⟨[], .ok m⟩ := by
  obtain ⟨_, same, closed⟩ := Modifier.write_closed printable
  obtain rfl := Except.ok.inj (same.symm.trans written)
  exact read_spelled "modifier" (modifier_reads printable) (by decide) closed.toOpen

/-- The text of a condition is the condition. -/
theorem condition_written {c : Condition} (printable : c.Printable) :
    Fragment.condition c.write = ⟨[], .ok c⟩ :=
  read_spelled "condition" (condition_reads printable rfl (by decide) (by decide)) (by decide)
    (Condition.write_open printable)

/-- The text of an action is the action. -/
theorem action_written {a : Action} (printable : a.Printable) :
    Fragment.action a.write = ⟨[], .ok a⟩ :=
  read_spelled "action" (action_reads _) (by decide) (Action.write_closed printable).toOpen

/-- The text of a trigger is the trigger. -/
theorem trigger_written {t : Trigger} (printable : t.Printable) :
    Fragment.trigger t.write = ⟨[], .ok t⟩ :=
  read_spelled "trigger" (trigger_reads printable) (by decide)
    (Trigger.write_closed printable).toOpen

/-- The text of an effect is the effect. -/
theorem effect_written {e : Effect} {text : Text} (printable : e.Printable)
    (written : e.write = .ok text) :
    Fragment.effect text = ⟨[], .ok e⟩ := by
  obtain ⟨_, same, isOpen⟩ := Effect.write_open printable
  obtain rfl := Except.ok.inj (same.symm.trans written)
  exact read_spelled "effect" (effect_reads printable rfl) (by decide) isOpen

/-- A printed part that is read back is read back repaired from its repaired text. -/
theorem read_repaired {α : Type} {text : Text} {m : α} {f : α → α}
    {write : α → Except Missing Text} {read : Text → Logged ParseError α}
    (written : write m = .ok text) (repairs : Text.RepairsOutcome (write m) (write (f m)))
    (readsBack : ∀ text, write (f m) = .ok text → read text = ⟨[], .ok (f m)⟩) :
    read text.toUtf8 = ⟨[], .ok (f m)⟩ := by
  apply readsBack
  rw [repairs.map_toUtf8, written]
  rfl

/-- The repaired text of a modifier is the repaired modifier. -/
theorem modifier_repaired {m : Modifier} {text : Text} (printable : m.Printable)
    (written : m.write = .ok text) :
    Fragment.modifier text.toUtf8 = ⟨[], .ok (m.mapTexts Text.toUtf8)⟩ :=
  read_repaired written m.write_repairs fun _ => modifier_written printable.repaired

/-- The repaired text of a condition is the repaired condition. -/
theorem condition_repaired {c : Condition} (printable : c.Printable) :
    Fragment.condition c.write.toUtf8 = ⟨[], .ok (c.mapTexts Text.toUtf8)⟩ := by
  rw [c.write_repairs.toUtf8_eq]
  exact condition_written printable.repaired

/-- The repaired text of an action is the repaired action. -/
theorem action_repaired {a : Action} (printable : a.Printable) :
    Fragment.action a.write.toUtf8 = ⟨[], .ok (a.mapTexts Text.toUtf8)⟩ := by
  rw [a.write_repairs.toUtf8_eq]
  exact action_written printable.repaired

/-- The repaired text of a trigger is the repaired trigger. -/
theorem trigger_repaired {t : Trigger} (printable : t.Printable) :
    Fragment.trigger t.write.toUtf8 = ⟨[], .ok (t.mapTexts Text.toUtf8)⟩ := by
  rw [t.write_repairs.toUtf8_eq]
  exact trigger_written printable.repaired

/-- The repaired text of an effect is the repaired effect. -/
theorem effect_repaired {e : Effect} {text : Text} (printable : e.Printable)
    (written : e.write = .ok text) :
    Fragment.effect text.toUtf8 = ⟨[], .ok (e.mapTexts Text.toUtf8)⟩ :=
  read_repaired written e.write_repairs fun _ => effect_written printable.repaired

end Persona.Fragment
