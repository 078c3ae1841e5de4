import Persona.Log

/-!
# Work that keeps a log

The outcome of a piece of work together with what it recorded on the way. The
records of a failed part are kept, because what happened before the failure is
what a reader of the log wants to see.
-/

namespace Persona

/-- An outcome and the records that led to it. -/
structure Logged (ε α : Type) where
  records : List Log.Record
  result : Except ε α

namespace Logged

variable {ε α β : Type}

/-- Work that records nothing. -/
protected def pure (value : α) : Logged ε α := ⟨[], .ok value⟩

/-- One piece of work after another; a failure ends the work. -/
protected def bind (first : Logged ε α) (next : α → Logged ε β) : Logged ε β :=
  match first.result with
  | .error e => ⟨first.records, .error e⟩
  | .ok value =>
    let second := next value
    ⟨first.records ++ second.records, second.result⟩

instance : Monad (Logged ε) where
  pure := Logged.pure
  bind := Logged.bind

instance : LawfulMonad (Logged ε) := LawfulMonad.mk' _
  (fun work => by
    change Logged.bind work _ = work
    cases work with
    | mk records result => cases result <;> simp [Logged.bind, Logged.pure])
  (fun value next => by
    change Logged.bind (Logged.pure value) next = next value
    simp [Logged.bind, Logged.pure])
  (fun work next last => by
    change Logged.bind (Logged.bind work next) last = Logged.bind work fun value =>
      Logged.bind (next value) last
    cases work with
    | mk records result =>
      cases result with
      | error e => rfl
      | ok value =>
        simp only [Logged.bind]
        cases (next value).result with
        | error e => rfl
        | ok second => simp)

/-- Record something. -/
def record (r : Log.Record) : Logged ε Unit := ⟨[r], .ok ()⟩

/-- Fail. -/
def fail (e : ε) : Logged ε α := ⟨[], .error e⟩

/-- The same work with its failure seen differently. -/
def mapError {δ : Type} (f : ε → δ) (work : Logged ε α) : Logged δ α :=
  ⟨work.records, work.result.mapError f⟩

end Logged

end Persona
