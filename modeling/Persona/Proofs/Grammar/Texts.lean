import Persona.Proofs.Grammar.Derivation
import Persona.Proofs.Grammar.Printable
import Persona.Proofs.Personality.Texts
import Persona.Proofs.Text.Utf8

/-!
# Where the texts of a part come from

The grammar makes up no text: each text of a part is the text of one of the symbols that
the part was read from. A text that is valid UTF-8 has only valid tokens, so whatever is
read from it, in its usual spelling or in another one, has only valid texts; and like
everything that is read it can be printed.
-/

namespace Persona

namespace Token

/-- A token read from well-formed characters has a valid value: its characters are
some of them. -/
theorem Lexed.isUtf8 {first : Character} {rest taken left : List Character} {kind : Kind}
    (lexed : Lexed first rest kind taken left)
    (formed : ∀ c ∈ first :: rest, Character.Sequence c) :
    (valueOf kind taken).isUtf8 = true := by
  obtain ⟨tail, rfl, rfl⟩ := lexed.covers
  have within : ∀ c ∈ first :: tail, Character.Sequence c := fun c member => formed c (by
    rcases List.mem_cons.mp member with rfl | later
    · exact List.mem_cons_self
    · simp [later])
  unfold valueOf
  split
  · exact Text.isUtf8_ofCharacters fun c member =>
      within c (List.mem_of_mem_drop (List.dropLast_subset _ member))
  · exact Text.isUtf8_ofCharacters within

/-- The tokens of a valid text have valid values. -/
theorem scan_isUtf8 {text : Text} (valid : text.isUtf8 = true) {stream : Scanner.Stream}
    (scanned : Token.scan text = .ok stream) : ∀ t ∈ stream.tokens, t.value.isUtf8 = true := by
  have both : (∀ t ∈ stream.tokens, t.value.isUtf8 = true) ∧ stream.last.kind = .endOfInput :=
    collect_ensures (fun _ _ lexed formed => lexed.isUtf8 formed)
      (fun _ member => Text.sequence_of_isUtf8 valid member) scanned
  exact both.1

/-- The symbol of a token with a valid value has a valid text. -/
theorem symbol_isUtf8 {t : Token} (valid : t.value.isUtf8 = true) :
    t.symbol.2.isUtf8 = true := by
  have fixed : ∀ kind : Kind, kind.text.isUtf8 = true := by
    intro kind
    cases kind <;> decide +kernel
  unfold symbol
  dsimp only
  split
  · exact valid
  · exact fixed t.kind

end Token

namespace Grammar

open Spelling (fixed word quoted call)

/-- The texts of symbols. -/
def symbolTexts (symbols : List Spelling) : List Text := symbols.map Prod.snd

/-- The text of a symbol is that of the first one or of a later one. -/
@[simp] theorem mem_symbolTexts_cons {text : Text} {s : Spelling} {e : List Spelling} :
    text ∈ symbolTexts (s :: e) ↔ text = s.2 ∨ text ∈ symbolTexts e := List.mem_cons

/-- The texts of joined symbols are those of both. -/
@[simp] theorem mem_symbolTexts_append {text : Text} {e f : List Spelling} :
    text ∈ symbolTexts (e ++ f) ↔ text ∈ symbolTexts e ∨ text ∈ symbolTexts f := by
  simp only [symbolTexts, List.map_append, List.mem_append]

/-- A name is the text of its symbol. -/
theorem NamePhrase.text_eq {s : Spelling} {text : Text} (phrase : NamePhrase s text) :
    s.2 = text := by
  cases phrase <;> rfl

/-- The text of a circumstance is among those of its symbols. -/
theorem ContextPhrase.texts_subset {e : List Spelling} {c : Context}
    (phrase : ContextPhrase e c) :
    c.texts ⊆ symbolTexts e := by
  cases phrase <;> simp [Context.texts, quoted]

/-- The texts of a modifier are among those of its symbols. -/
theorem ModifierPhrase.texts_subset {e : List Spelling} {m : Modifier}
    (phrase : ModifierPhrase e m) :
    m.texts ⊆ symbolTexts e := by
  intro text member
  cases phrase with
  | decay rated timed => cases member
  | «when» inner =>
    have listed := inner.texts_subset (by simpa [Modifier.texts] using member)
    simp [call, listed]
  | «unless» inner =>
    have listed := inner.texts_subset (by simpa [Modifier.texts] using member)
    simp [call, listed]
  | amplifies named scaled =>
    obtain rfl := List.mem_singleton.mp member
    simp [call, named.text_eq]
  | transformsTo named scaled counted =>
    obtain rfl := List.mem_singleton.mp member
    simp [call, named.text_eq]

/-- The texts of a condition are among those of its symbols. -/
theorem ConditionPhrase.texts_subset {e : List Spelling} {c : Condition}
    (phrase : ConditionPhrase e c) :
    c.texts ⊆ symbolTexts e := by
  cases phrase with
  | above named limited => simp [Condition.texts, named.text_eq]
  | _ => simp [Condition.texts, call, quoted, word]

/-- The text of a string, with or without parentheses, is that of a symbol. -/
theorem LooseStringPhrase.text_mem {e : List Spelling} {value : Text}
    (phrase : LooseStringPhrase e value) :
    value ∈ symbolTexts e := by
  cases phrase <;> simp [quoted]

/-- The texts of an action are among those of its symbols. -/
theorem ActionPhrase.texts_subset {e : List Spelling} {a : Action}
    (phrase : ActionPhrase e a) :
    a.texts ⊆ symbolTexts e := by
  cases phrase with
  | prefer wanted => simp [Action.texts, wanted.text_mem]
  | seek wanted => simp [Action.texts, wanted.text_mem]
  | avoid unwanted => simp [Action.texts, unwanted.text_mem]
  | style listed named value => simp [Action.texts, call, named.text_eq, quoted]

/-- The texts of a behavior rule are among those of its symbols. -/
theorem BehaviorPhrase.texts_subset {e : List Spelling} {r : BehaviorRule}
    (phrase : BehaviorPhrase e r) :
    r.texts ⊆ symbolTexts e := by
  cases phrase with
  | @rule e f condition action holds acts =>
    intro text member
    have parts : text ∈ condition.texts ∨ text ∈ action.texts := by
      simpa [BehaviorRule.texts] using member
    rcases parts with inCondition | inAction
    · have listed := holds.texts_subset inCondition
      simp [listed]
    · have listed := acts.texts_subset inAction
      simp [listed]

/-- The text of a trigger is among those of its symbols. -/
theorem TriggerPhrase.texts_subset {e : List Spelling} {t : Trigger}
    (phrase : TriggerPhrase e t) :
    t.texts ⊆ symbolTexts e := by
  cases phrase with
  | learns named => simp [Trigger.texts, call, named.text_eq]
  | timeIn named counted timed => simp [Trigger.texts, call, named.text_eq]
  | _ => simp [Trigger.texts]

/-- The texts of an effect are among those of its symbols. -/
theorem EffectPhrase.texts_subset {e : List Spelling} {effect : Effect}
    (phrase : EffectPhrase e effect) :
    effect.texts ⊆ symbolTexts e := by
  cases phrase with
  | increase named moved => simp [Effect.texts, named.text_eq]
  | decrease named moved => simp [Effect.texts, named.text_eq]
  | arrow leaves enters weighed => simp [Effect.texts, call, leaves.text_eq, enters.text_eq]
  | unlock named => simp [Effect.texts, call, named.text_eq]
  | connect leaves enters weighed => simp [Effect.texts, call, leaves.text_eq, enters.text_eq]
  | adopt behaves =>
    intro text member
    have listed := behaves.texts_subset member
    simp [braced, listed]
  | adoptSeparated behaves =>
    intro text member
    have listed := behaves.texts_subset member
    simp [braced, listed]

/-- A part that takes all the tokens derives as the part does. -/
theorem whole_derives {α : Type} (what : Text) {p : Parser α}
    {phrase : List Spelling → α → Prop}
    (derives : Derives p phrase) : Derives (whole what p) phrase := by
  intro setting tokens
  refine TakesFrom.bind derives ?_
  rintro used value left - holds
  refine TakesFrom.look fun t _ => TakesFrom.ite (fun _ => TakesFrom.pure ?_) fun _ =>
    TakesFrom.failAt t _
  simpa using holds

/-- A part that takes all the tokens ensures what the part does. -/
theorem whole_ensures {α : Type} (what : Text) {p : Parser α} {post : α → Prop}
    (ensures : Ensures p post) :
    Ensures (whole what p) post :=
  Ensures.bind ensures fun _ holds => Ensures.andThen Ensures.current fun t =>
    Ensures.ite (fun _ => Ensures.pure holds) fun _ => Ensures.failAt t _

end Grammar

namespace Fragment

open Grammar

/-- A fragment that is read satisfies what its parser ensures, and where the texts of a
part are among those of its symbols, a valid fragment has only valid texts. -/
theorem read_sound {α : Type} {what text : Text} {p : Parser α}
    {phrase : List Spelling → α → Prop} {post : α → Prop}
    {texts : α → List Text} {value : α} (derives : Derives p phrase) (ensures : Ensures p post)
    (listed : ∀ {symbols value}, phrase symbols value → texts value ⊆ symbolTexts symbols)
    (valid : text.isUtf8 = true) (read : (Fragment.read what p text).result = .ok value) :
    post value ∧ ∀ t ∈ texts value, t.isUtf8 = true := by
  unfold Fragment.read at read
  dsimp only at read
  split at read
  · cases read
  rename_i stream scanned
  obtain ⟨clean, ends⟩ := Token.scan_clean scanned
  have cleanEnd := Token.clean_of_end ends
  cases outcome : whole what p ⟨stream.last, defaultLimit, 0⟩ stream.tokens with
  | mk events reply =>
    cases reply with
    | error e => simp [outcome] at read
    | ok answer =>
      obtain ⟨result, left⟩ := answer
      obtain rfl : result = value := by simpa [outcome] using read
      refine ⟨(whole_ensures what ensures _ _ _ _ left cleanEnd clean outcome).1, ?_⟩
      obtain ⟨used, split, phrased⟩ :=
        (whole_derives what derives _ _ ends).2 _ left (by rw [outcome])
      intro t member
      obtain ⟨s, among, rfl⟩ := List.mem_map.mp (listed phrased member)
      obtain ⟨token, taken, rfl⟩ := List.mem_map.mp among
      refine Token.symbol_isUtf8 (Token.scan_isUtf8 valid scanned token ?_)
      rw [split]
      exact List.mem_append_left left taken

end Fragment

end Persona
