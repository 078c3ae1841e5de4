import Persona.Runner

/-!
# Requests side by side

Several requests can be under way on one runner. Each looks its output up, makes it
if it was not found, stores what it has made and puts its response into its own
place of the batch; each of these acts is uninterrupted, but between two acts of one
request any acts of others may come. A schedule says whose act comes next. A limit on
how many requests are under way only leaves fewer schedules.

Running the requests one after the other is one of the schedules.
-/

namespace Persona

open Artifact (Cache)

/-- The requests that are run on one runner, and the capacity asked for its cache. -/
structure Session where
  options : RunOptions
  capacity : Int
  requests : List Request

/-- How far a request has come. -/
inductive Stage where
  | waiting
  /-- Its output was not in the cache. -/
  | missed
  /-- Its output was made but is not stored yet. -/
  | built (response : Response)
  | returned (response : Response)

/-- What a request does without interruption. -/
inductive Act where
  | lookUp | build | store | deliver
deriving DecidableEq, Repr

/-- The turn of the request at an index to do something. -/
structure Turn where
  index : Nat
  act : Act
deriving DecidableEq, Repr

/-- The cache, the stage of each request, and the places for their responses. -/
structure Session.State where
  cache : Cache
  stages : List Stage
  slots : List (Option Response)

namespace Session

variable (session : Session)

/-- The key of a request. -/
def key (q : Request) : UInt64 := q.key session.options

/-- The response to a request on the same runner without its cache. -/
def uncached (q : Request) : Response := (Runner.run ⟨session.options, none⟩ q).2.2

/-- The runner with its cache, before any request. -/
def runner : Runner := ⟨session.options, some (.ofCapacity session.capacity)⟩

/-- No request has been looked at. -/
def start : State where
  cache := .ofCapacity session.capacity
  stages := session.requests.map fun _ => .waiting
  slots := session.requests.map fun _ => none

/-- The request at an index has come to a stage. -/
def State.enter (state : State) (i : Nat) (stage : Stage) : State :=
  { state with stages := state.stages.set i stage }

/-- One act; there is none that the stage of the request does not allow. -/
def step (state : State) (turn : Turn) : Option State := do
  let q ← session.requests[turn.index]?
  let stage ← state.stages[turn.index]?
  match turn.act, stage with
  | .lookUp, .waiting =>
    if q.canceled then
      return state.enter turn.index (.returned { q.blank with failure := some .canceled })
    else match state.cache.get (session.key q) with
      | (some output, after) =>
        return { state.enter turn.index (.returned { q.blank with
                 output := output, cached := true }) with
          cache := after }
      | (none, after) => return { state.enter turn.index .missed with cache := after }
  | .build, .missed =>
    let response := (q.make session.options).2
    match response.failure with
    | some _ => return state.enter turn.index (.returned response)
    | none => return state.enter turn.index (.built response)
  | .store, .built response =>
    return { state.enter turn.index (.returned response) with
      cache := state.cache.set (session.key q) response.output }
  | .deliver, .returned response =>
    return { state with slots := state.slots.set turn.index (some response) }
  | _, _ => none

/-- The state after the acts of a schedule, if they are all possible. -/
def run (schedule : List Turn) : Option State := schedule.foldlM session.step session.start

variable {session : Session}

/-- What each act needs and does. -/
inductive Moves (session : Session) : State → Turn → State → Prop where
  | cancel {state : State} {i : Nat} {q : Request} (request : session.requests[i]? = some q)
      (waiting : state.stages[i]? = some .waiting) (canceled : q.canceled = true) :
      Moves session state ⟨i, .lookUp⟩
        (state.enter i (.returned { q.blank with failure := some .canceled }))
  | hit {state : State} {i : Nat} {q : Request} {output : Text} {after : Cache}
      (request : session.requests[i]? = some q) (waiting : state.stages[i]? = some .waiting)
      (asked : q.canceled = false)
      (found : state.cache.get (session.key q) = (some output, after)) :
      Moves session state ⟨i, .lookUp⟩
        { state.enter i (.returned { q.blank with
          output := output, cached := true }) with cache := after }
  | miss {state : State} {i : Nat} {q : Request} {after : Cache}
      (request : session.requests[i]? = some q) (waiting : state.stages[i]? = some .waiting)
      (asked : q.canceled = false) (found : state.cache.get (session.key q) = (none, after)) :
      Moves session state ⟨i, .lookUp⟩ { state.enter i .missed with cache := after }
  | fail {state : State} {i : Nat} {q : Request} (request : session.requests[i]? = some q)
      (missed : state.stages[i]? = some .missed)
        (failed : (q.make session.options).2.failure ≠ none) :
      Moves session state ⟨i, .build⟩ (state.enter i (.returned (q.make session.options).2))
  | succeed {state : State} {i : Nat} {q : Request} (request : session.requests[i]? = some q)
      (missed : state.stages[i]? = some .missed)
        (succeeded : (q.make session.options).2.failure = none) :
      Moves session state ⟨i, .build⟩ (state.enter i (.built (q.make session.options).2))
  | store {state : State} {i : Nat} {q : Request} {response : Response}
      (request : session.requests[i]? = some q)
      (built : state.stages[i]? = some (.built response)) :
      Moves session state ⟨i, .store⟩
        { state.enter i (.returned response) with
          cache := state.cache.set (session.key q) response.output }
  | deliver {state : State} {i : Nat} {q : Request} {response : Response}
      (request : session.requests[i]? = some q)
      (returned : state.stages[i]? = some (.returned response)) :
      Moves session state ⟨i, .deliver⟩
        { state with slots := state.slots.set i (some response) }

/-- The acts are those moves and no others. -/
theorem step_eq_some_iff {state next : State} {turn : Turn} :
    session.step state turn = some next ↔ session.Moves state turn next := by
  obtain ⟨i, act⟩ := turn
  constructor
  · intro stepped
    unfold step at stepped
    cases request : session.requests[i]? with
    | none => simp [request] at stepped
    | some q =>
      cases entered : state.stages[i]? with
      | none => simp [request, entered] at stepped
      | some stage =>
        simp only [request, entered, Option.bind_eq_bind, Option.bind_some,
          Option.pure_def] at stepped
        split at stepped
        · split at stepped
          · cases stepped
            exact .cancel request entered ‹_›
          · rename_i asked
            have asked : q.canceled = false := by simpa using asked
            split at stepped
            · cases stepped
              exact .hit request entered asked ‹_›
            · cases stepped
              exact .miss request entered asked ‹_›
        · split at stepped
          · rename_i failure failed
            cases stepped
            exact .fail request entered (by simp [failed])
          · cases stepped
            exact .succeed request entered ‹_›
        · cases stepped
          exact .store request entered
        · cases stepped
          exact .deliver request entered
        · cases stepped
  · intro moved
    cases moved with
    | cancel request waiting canceled => simp [step, request, waiting, canceled]
    | hit request waiting asked found => simp [step, request, waiting, asked, found]
    | miss request waiting asked found => simp [step, request, waiting, asked, found]
    | fail request missed failed =>
      obtain ⟨failure, failed⟩ := Option.ne_none_iff_exists'.mp failed
      simp [step, request, missed, failed]
    | succeed request missed succeeded => simp [step, request, missed, succeeded]
    | store request built => simp [step, request, built]
    | deliver request returned => simp [step, request, returned]

/-- A possible act followed by a possible schedule. -/
theorem foldlM_of_moves {state between last : State} {turn : Turn} {schedule : List Turn}
    (moved : session.Moves state turn between)
    (later : schedule.foldlM session.step between = some last) :
    (turn :: schedule).foldlM session.step state = some last := by
  rw [List.foldlM_cons, step_eq_some_iff.mpr moved]
  exact later

/-- The acts of one request without interruption do what the runner does, and deliver
its response. -/
theorem run_one (state : State) {i : Nat} {q : Request}
    (request : session.requests[i]? = some q) (waiting : state.stages[i]? = some .waiting) :
    ∃ (schedule : List Turn) (cache : Cache) (records : List Log.Record) (response : Response),
      Runner.run ⟨session.options, some state.cache⟩ q = (⟨session.options, some cache⟩,
      records, response) ∧
      schedule.foldlM session.step state =
        some ⟨cache, state.stages.set i (.returned response),
        state.slots.set i (some response)⟩ := by
  have inRange := (List.getElem?_eq_some_iff.mp waiting).1
  have entered (stages : List Stage) (long : stages.length = state.stages.length)
      (stage : Stage) :
      (stages.set i stage)[i]? = some stage := List.getElem?_set_self (by omega)
  cases asked : q.canceled with
  | true =>
    refine ⟨[⟨i, .lookUp⟩, ⟨i, .deliver⟩], state.cache, [],
      { q.blank with failure := some .canceled },
      by simp only [Runner.run, asked, if_true], ?_⟩
    exact foldlM_of_moves (.cancel request waiting asked)
      (foldlM_of_moves (.deliver request (entered _ rfl _)) rfl)
  | false =>
    cases lookedUp : state.cache.get (session.key q) with
    | mk found after =>
    have lookedUp' : state.cache.get (q.key session.options) = (found, after) := lookedUp
    cases found with
    | some output =>
      refine ⟨[⟨i, .lookUp⟩, ⟨i, .deliver⟩], after, [q.hitRecord],
        { q.blank with output := output, cached := true },
        by simp [Runner.run, asked, lookedUp'], ?_⟩
      exact foldlM_of_moves (.hit request waiting asked lookedUp)
        (foldlM_of_moves (.deliver request (entered _ rfl _)) rfl)
    | none =>
      have missed := Moves.miss request waiting asked lookedUp
      cases made : (q.make session.options).2.failure with
      | some failure =>
        refine ⟨[⟨i, .lookUp⟩, ⟨i, .build⟩, ⟨i, .deliver⟩], after, (q.make session.options).1,
          (q.make session.options).2, by simp [Runner.run, asked, lookedUp', made], ?_⟩
        refine foldlM_of_moves missed
          (foldlM_of_moves (.fail request (entered _ rfl _) (by simp [made]))
          (foldlM_of_moves (.deliver request (entered _ (by simp [State.enter]) _)) ?_))
        simp [State.enter]
      | none =>
        refine ⟨[⟨i, .lookUp⟩, ⟨i, .build⟩, ⟨i, .store⟩, ⟨i, .deliver⟩],
          after.set (session.key q) (q.make session.options).2.output,
          (q.make session.options).1, (q.make session.options).2,
          by simp [Runner.run, asked, lookedUp', made, key], ?_⟩
        refine foldlM_of_moves missed
          (foldlM_of_moves (.succeed request (entered _ rfl _) made)
          (foldlM_of_moves (.store request (entered _ (by simp [State.enter]) _))
            (foldlM_of_moves (.deliver request (entered _ (by simp [State.enter]) _)) ?_)))
        simp [State.enter]

/-- The requests that are left can be run one after the other when those before them
are through. -/
theorem runAll_scheduled (rest done : List Request) (cache : Cache) (stages : List Stage)
    (slots : List (Option Response)) (requests : session.requests = done ++ rest)
    (stagesLength : stages.length = done.length) (slotsLength : slots.length = done.length) :
    ∃ (schedule : List Turn) (last : State),
      schedule.foldlM session.step ⟨cache, stages ++ rest.map fun _ =>
      .waiting, slots ++ rest.map fun _ => none⟩ =
        some last ∧
      (Runner.runAll ⟨session.options, some cache⟩ rest).1 = ⟨session.options,
      some last.cache⟩ ∧
      last.slots = slots ++ (Runner.runAll ⟨session.options, some cache⟩ rest).2.2.map
      some := by
  induction rest generalizing done cache stages slots with
  | nil => exact ⟨[], _, rfl, rfl, rfl⟩
  | cons q rest inductionHypothesis =>
    have request : session.requests[done.length]? = some q := by simp [requests]
    have waiting : (stages ++ (q :: rest).map fun _ => Stage.waiting)[done.length]? =
        some .waiting := by
      simp [← stagesLength]
    obtain ⟨first, next, records, response, ran, moved⟩ :=
      run_one ⟨cache, stages ++ (q :: rest).map fun _ =>
        .waiting, slots ++ (q :: rest).map fun _ => none⟩
        request waiting
    obtain ⟨schedule, last, later, ranAll, filled⟩ := inductionHypothesis (done ++ [q]) next
      (stages ++ [.returned response]) (slots ++ [some response]) (by simp [requests])
        (by simp [stagesLength])
      (by simp [slotsLength])
    refine ⟨first ++ schedule, last, ?_, ?_, ?_⟩
    · have stagesSet : (stages ++ (q :: rest).map fun _ =>
          Stage.waiting).set done.length (.returned response) =
          (stages ++ [.returned response]) ++ rest.map fun _ => .waiting := by
        simp [← stagesLength]
      have slotsSet : (slots ++ (q :: rest).map fun _ =>
          none).set done.length (some response) =
          (slots ++ [some response]) ++ rest.map fun _ => none := by
        simp [← slotsLength]
      rw [List.foldlM_append, moved, stagesSet, slotsSet]
      exact later
    · simp [Runner.runAll, ran, ranAll]
    · simp [Runner.runAll, ran, filled]

/-- Running a batch one request after the other is one of the schedules, and delivers
its responses. -/
theorem runBatch_scheduled (session : Session) :
    ∃ (schedule : List Turn) (state : State), session.run schedule = some state ∧
      (session.runner.runBatch false session.requests).1 = ⟨session.options,
      some state.cache⟩ ∧
      state.slots = (session.runner.runBatch false session.requests).2.2.map some :=
  runAll_scheduled session.requests [] (.ofCapacity session.capacity) [] [] rfl rfl rfl

end Session

end Persona
