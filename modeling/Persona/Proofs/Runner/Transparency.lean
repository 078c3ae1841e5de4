import Mathlib.Data.List.Induction
import Persona.Proofs.Artifact.Cache
import Persona.Proofs.Request
import Persona.Proofs.Runner.Schedule

/-!
# The cache cannot be noticed

However the acts of requests alternate, each request gets the output and the failure
that it would get from the same runner without a cache. The reason is an invariant:
every entry is what some request with its key makes, and requests with one key make
the same. So it does not matter who stored an entry, how often it was replaced or
when it gave way.
-/

namespace Persona.Session

variable (session : Session)

/-- Requests for different artifacts have different keys. -/
def KeysDistinct : Prop :=
  ∀ a ∈ session.requests, ∀ b ∈ session.requests, session.key a = session.key b → a.Alike b

instance : Decidable session.KeysDistinct :=
  inferInstanceAs (Decidable (∀ a ∈ session.requests, ∀ b ∈ session.requests,
    session.key a = session.key b → a.Alike b))

/-- The entry is the output of a request with its key that succeeds without the cache. -/
def Genuine (entry : UInt64 × Text) : Prop :=
  ∃ q ∈ session.requests, session.key q = entry.1 ∧ (session.uncached q).failure = none ∧
    (session.uncached q).output = entry.2

/-- Some request of the schedule has stored its output under the key. -/
def Stored (schedule : List Turn) (key : UInt64) : Prop :=
  ∃ i q, ⟨i, .store⟩ ∈ schedule ∧ session.requests[i]? = some q ∧ session.key q = key

/-- The request at an index was looked up after an output had been stored
under its key. -/
def FoundStored (schedule : List Turn) (i : Nat) (q : Request) : Prop :=
  ∃ earlier later, schedule = earlier ++ ⟨i, .lookUp⟩ :: later ∧
    session.Stored earlier (session.key q)

/-- What can be observed in the state that a schedule leads to, with respect
to the cache. -/
structure Transparent (schedule : List Turn) (state : State) : Prop where
  /-- Every entry is what a request with its key makes without the cache. -/
  entries : ∀ entry ∈ state.cache.entries, session.Genuine entry
  /-- A response has the output and the failure that it has without the cache. -/
  responses : ∀ (i : Nat) (q : Request) (response : Response), session.requests[i]? = some q →
    state.stages[i]? = some (.returned response) →
    response.output = (session.uncached q).output ∧
      response.failure = (session.uncached q).failure
  /-- Whatever a failing request does next, the entries stay as they are. -/
  failures : ∀ turn next q, session.requests[turn.index]? = some q →
    (session.uncached q).failure ≠ none →
    session.step state turn = some next → next.cache.entries = state.cache.entries
  /-- Nothing is said to come from the cache that had not been stored under the
  key before. -/
  cached : ∀ (i : Nat) (q : Request) (response : Response), session.requests[i]? = some q →
    state.stages[i]? = some (.returned response) → response.cached = true →
      session.FoundStored schedule i q
  /-- There is one place for each request, and nothing is put there but its
  own response. -/
  places : state.slots.length = session.requests.length ∧ ∀ (i : Nat) (response : Response),
    state.slots[i]? = some (some response) → state.stages[i]? = some (.returned response)

/-- What holds of a request that has come to a stage. -/
def Justified (schedule : List Turn) (i : Nat) (q : Request) : Stage → Prop
  | .waiting => True
  | .missed => q.canceled = false
  | .built response => response = session.uncached q ∧ response.failure = none
  | .returned response =>
    response.output = (session.uncached q).output ∧
      response.failure = (session.uncached q).failure ∧
      (response.cached = true → session.FoundStored schedule i q)

/-- What every act preserves: the cache is in step, its entries are genuine and have been
stored, each stage is justified, and what was delivered had been returned. -/
structure Invariant (schedule : List Turn) (state : State) : Prop where
  tidy : state.cache.Tidy
  entries : ∀ entry ∈ state.cache.entries, session.Genuine entry ∧
    session.Stored schedule entry.1
  stages : ∀ (i : Nat) (q : Request) (stage : Stage), session.requests[i]? = some q →
    state.stages[i]? = some stage →
    session.Justified schedule i q stage
  places : state.slots.length = session.requests.length ∧ ∀ (i : Nat) (response : Response),
    state.slots[i]? = some (some response) → state.stages[i]? = some (.returned response)

variable {session} {schedule : List Turn} {state : State} {turn : Turn} {i : Nat} {q : Request}

/-- Nothing is in the cache and no request has begun. -/
theorem invariant_start : session.Invariant [] session.start where
  tidy := Artifact.Cache.tidy_ofCapacity session.capacity
  entries := by simp [start, Artifact.Cache.ofCapacity]
  stages := by
    intro i q stage _ entered
    simp only [start, List.getElem?_map, Option.map_eq_some_iff] at entered
    obtain ⟨_, -, rfl⟩ := entered
    trivial
  places := by
    refine ⟨by simp [start], ?_⟩
    intro i response filled
    simp [start, List.getElem?_replicate] at filled

/-- What has been stored remains stored. -/
theorem Stored.append {key : UInt64} (stored : session.Stored schedule key)
    (more : List Turn) :
    session.Stored (schedule ++ more) key := by
  obtain ⟨i, q, member, request, same⟩ := stored
  exact ⟨i, q, List.mem_append_left _ member, request, same⟩

/-- A stage that is justified remains so. -/
theorem Justified.append {stage : Stage} (justified : session.Justified schedule i q stage)
    (more : List Turn) :
    session.Justified (schedule ++ more) i q stage := by
  cases stage with
  | returned response =>
    obtain ⟨output, failure, cached⟩ := justified
    refine ⟨output, failure, fun hit => ?_⟩
    obtain ⟨earlier, later, rfl, stored⟩ := cached hit
    exact ⟨earlier, later ++ more, by simp, stored⟩
  | _ => exact justified

/-- A request that has not returned may come to a stage that is justified. -/
theorem Invariant.enter {cache : Artifact.Cache} {old stage : Stage}
    (invariant : session.Invariant schedule state)
    (request : session.requests[i]? = some q) (before : state.stages[i]? = some old)
    (unreturned : ∀ response, old ≠ .returned response) (tidy : cache.Tidy)
    (entries : ∀ entry ∈ cache.entries, session.Genuine entry ∧
      session.Stored (schedule ++ [turn]) entry.1)
    (justified : session.Justified (schedule ++ [turn]) i q stage) :
    session.Invariant (schedule ++ [turn]) { state.enter i stage with cache := cache } := by
  have inRange := (List.getElem?_eq_some_iff.mp before).1
  refine ⟨tidy, entries, ?_, invariant.places.1, ?_⟩
  · intro j p there asked entered
    by_cases same : i = j
    · subst same
      rw [request] at asked
      obtain rfl := Option.some.inj asked
      simp only [State.enter, List.getElem?_set_self inRange, Option.some.injEq] at entered
      rwa [← entered]
    · simp only [State.enter, List.getElem?_set_ne same] at entered
      exact (invariant.stages j p there asked entered).append [turn]
  · intro j response filled
    have returned := invariant.places.2 j response filled
    have other : i ≠ j := by
      rintro rfl
      rw [before] at returned
      exact unreturned response (Option.some.inj returned)
    simp only [State.enter, List.getElem?_set_ne other]
    exact returned

/-- A request that is not canceled is made when there is no cache. -/
theorem uncached_eq (asked : q.canceled = false) :
    session.uncached q = (q.make session.options).2 := by
  rw [uncached, Runner.run_uncached session.options asked]

/-- A response that was made without a cache was not found in one. -/
theorem uncached_cached (q : Request) : (session.uncached q).cached = false := by
  cases asked : q.canceled with
  | true => simp [uncached, Runner.run, asked, Request.blank]
  | false =>
    rw [uncached_eq asked, Request.make_response]
    unfold Request.build
    dsimp only
    split
    · rfl
    dsimp only
    split <;> rfl

/-- The response without a cache may be returned at any time. -/
theorem justified_uncached (schedule : List Turn) (i : Nat) (q : Request) :
    session.Justified schedule i q (.returned (session.uncached q)) :=
  ⟨rfl, rfl, fun hit => by simp [uncached_cached] at hit⟩

/-- A genuine entry under the key of a request is what the request makes itself. -/
theorem Genuine.output {output : Text} (distinct : session.KeysDistinct)
    (genuine : session.Genuine (session.key q, output)) (member : q ∈ session.requests)
    (asked : q.canceled = false) :
    (session.uncached q).failure = none ∧ output = (session.uncached q).output := by
  obtain ⟨p, inSession, sameKey, succeeds, made⟩ := genuine
  have asked' : p.canceled = false := by
    cases canceled : p.canceled with
    | false => rfl
    | true => simp [uncached, Runner.run, canceled] at succeeds
  rw [uncached_eq asked', Request.make_response] at succeeds made
  obtain ⟨succeedsToo, sameOutput⟩ :=
    Request.build_alike (distinct p inSession q member sameKey) succeeds
  rw [uncached_eq asked, Request.make_response]
  exact ⟨succeedsToo, by rw [sameOutput, made]⟩

/-- A request that has returned may be delivered. -/
theorem Invariant.deliver {response : Response} (invariant : session.Invariant schedule state)
    (request : session.requests[i]? = some q)
    (returned : state.stages[i]? = some (.returned response)) :
    session.Invariant (schedule ++ [turn])
      { state with slots := state.slots.set i (some response) } where
  tidy := invariant.tidy
  entries entry member := (invariant.entries entry member).imp_right fun stored =>
    stored.append [turn]
  stages j p stage asked entered := (invariant.stages j p stage asked entered).append [turn]
  places := by
    have inRange : i < state.slots.length := by
      rw [invariant.places.1]
      exact (List.getElem?_eq_some_iff.mp request).1
    refine ⟨by simpa using invariant.places.1, fun j other filled => ?_⟩
    by_cases same : i = j
    · subst same
      simp only [List.getElem?_set_self inRange, Option.some.injEq] at filled
      rwa [← filled]
    · rw [List.getElem?_set_ne same] at filled
      exact invariant.places.2 j other filled

/-- Every act preserves the invariant. -/
theorem Invariant.move {next : State} (distinct : session.KeysDistinct)
    (invariant : session.Invariant schedule state) (moved : session.Moves state turn next) :
    session.Invariant (schedule ++ [turn]) next := by
  have kept : ∀ entry ∈ state.cache.entries, session.Genuine entry ∧
      session.Stored (schedule ++ [turn]) entry.1 :=
    fun entry member => (invariant.entries entry member).imp_right fun stored =>
      stored.append [turn]
  cases moved with
  | @cancel i q request waiting canceled =>
    have same : session.uncached q = { q.blank with failure := some .canceled } := by
      simp [uncached, Runner.run, canceled]
    refine invariant.enter request waiting (by simp) invariant.tidy kept ?_
    rw [← same]
    exact justified_uncached _ i q
  | @hit i q output after request waiting asked found =>
    have tidy : after.Tidy := by simpa only [found] using invariant.tidy.get (session.key q)
    obtain ⟨held, others⟩ := invariant.tidy.get_some found
    obtain ⟨genuine, stored⟩ := invariant.entries _ held
    obtain ⟨succeeds, same⟩ := genuine.output distinct (List.mem_of_getElem? request) asked
    refine invariant.enter request waiting (by simp) tidy (fun entry member =>
      kept entry (others entry member)) ?_
    exact ⟨same, succeeds.symm, fun _ => ⟨schedule, [], rfl, stored⟩⟩
  | @miss i q after request waiting asked found =>
    have tidy : after.Tidy := by simpa only [found] using invariant.tidy.get (session.key q)
    refine invariant.enter request waiting (by simp) tidy ?_ asked
    rw [Artifact.Cache.get_none found]
    exact kept
  | @fail i q request missed failed =>
    have asked : q.canceled = false := invariant.stages i q _ request missed
    refine invariant.enter request missed (by simp) invariant.tidy kept ?_
    rw [← uncached_eq asked]
    exact justified_uncached _ i q
  | @succeed i q request missed succeeded =>
    have asked : q.canceled = false := invariant.stages i q _ request missed
    refine invariant.enter request missed (by simp) invariant.tidy kept ?_
    exact ⟨(uncached_eq asked).symm, succeeded⟩
  | @store i q response request built =>
    obtain ⟨rfl, succeeded⟩ := invariant.stages i q _ request built
    refine invariant.enter request built (by simp) (invariant.tidy.set _ _) ?_ ?_
    · intro entry member
      obtain rfl | held := invariant.tidy.mem_set member
      · exact ⟨⟨q, List.mem_of_getElem? request, rfl, succeeded, rfl⟩, i,
          q, by simp, request, rfl⟩
      · exact kept entry held
    · exact justified_uncached _ i q
  | deliver request returned => exact invariant.deliver request returned

/-- A request that fails without the cache leaves the entries alone. -/
theorem Invariant.entries_of_failing {next : State} (distinct : session.KeysDistinct)
    (invariant : session.Invariant schedule state)
    (request : session.requests[turn.index]? = some q)
    (failing : (session.uncached q).failure ≠ none) (moved : session.Moves state turn next) :
    next.cache.entries = state.cache.entries := by
  cases moved with
  | hit request' waiting asked found =>
    obtain rfl := Option.some.inj (request.symm.trans request')
    have genuine := (invariant.entries _ (invariant.tidy.get_some found).1).1
    exact absurd (genuine.output distinct (List.mem_of_getElem? request) asked).1 failing
  | miss request' waiting asked found => exact Artifact.Cache.get_none found
  | store request' built =>
    obtain rfl := Option.some.inj (request.symm.trans request')
    obtain ⟨rfl, succeeded⟩ := invariant.stages _ _ _ request built
    exact absurd succeeded failing
  | _ => rfl

/-- The invariant holds after every schedule. -/
theorem invariant_run (distinct : session.KeysDistinct)
    (reached : session.run schedule = some state) :
    session.Invariant schedule state := by
  -- The schedule grows at its end, as the history that the invariant speaks of does.
  induction schedule using List.reverseRecOn generalizing state with
  | nil =>
    obtain rfl := Option.some.inj reached
    exact invariant_start
  | append_singleton earlier turn inductionHypothesis =>
    rw [run, List.foldlM_append] at reached
    obtain ⟨between, before, stepped⟩ := Option.bind_eq_some_iff.mp reached
    have stepped : session.step between turn = some state := by simpa using stepped
    exact (inductionHypothesis before).move distinct (step_eq_some_iff.mp stepped)

/-- The cache cannot be noticed. If requests for different artifacts have different keys,
then in every state that some schedule leads to, entries are genuine, responses are those
of the runner without its cache, failing requests leave no trace, what is said to come
from the cache had been stored, and each response is in its place; and running a batch is
one of the schedules. -/
theorem transparent (distinct : session.KeysDistinct) :
    (∀ schedule state, session.run schedule = some state →
      session.Transparent schedule state) ∧
    ∃ schedule state, session.run schedule = some state ∧
      (session.runner.runBatch false session.requests).1 = ⟨session.options,
      some state.cache⟩ ∧
      state.slots = (session.runner.runBatch false session.requests).2.2.map some := by
  refine ⟨?_, session.runBatch_scheduled⟩
  intro schedule state reached
  have invariant := invariant_run distinct reached
  constructor
  case entries =>
    intro entry member
    exact (invariant.entries entry member).1
  case responses =>
    intro i q response request returned
    obtain ⟨output, failure, -⟩ := invariant.stages i q _ request returned
    exact ⟨output, failure⟩
  case failures =>
    intro turn next q request failing stepped
    exact invariant.entries_of_failing distinct request failing (step_eq_some_iff.mp stepped)
  case cached =>
    intro i q response request returned
    exact (invariant.stages i q _ request returned).2.2
  case places => exact invariant.places

/-- Four requests for a cache that holds one output: three ask for the same, one of them
under another file name, and one cannot be read. -/
def crowded : Session where
  options := {}
  capacity := 1
  requests :=
    let twin : Request :=
      { source := "personality \"twin\" \x7b \x7d", file := "one", target := "lua",
        context := [], degree := .basic }
    [twin, { twin with file := "two" }, { twin with source := "personality" }, twin]

/-- Two requests miss before either has stored, the unreadable one comes in between, and
the last one finds what they stored. -/
def crowdedSchedule : List Turn :=
  [⟨0, .lookUp⟩, ⟨1, .lookUp⟩, ⟨1, .build⟩, ⟨0, .build⟩, ⟨1, .store⟩, ⟨2, .lookUp⟩,
   ⟨2, .build⟩, ⟨0, .store⟩, ⟨3, .lookUp⟩, ⟨3, .deliver⟩, ⟨2, .deliver⟩, ⟨0, .deliver⟩,
   ⟨1, .deliver⟩]

/-- In that schedule every answer is what building the request gives, the last one
from the cache. -/
theorem transparent_crowded : crowded.KeysDistinct ∧
    ∃ state, crowded.run crowdedSchedule = some state ∧
      crowded.Transparent crowdedSchedule state ∧
      state.slots.map (Option.map Response.cached) =
      [some false, some false, some false, some true] := by
  have distinct : crowded.KeysDistinct := by decide +kernel
  have possible : (crowded.run crowdedSchedule).map (fun state =>
      state.slots.map (Option.map Response.cached)) =
      some [some false, some false, some false, some true] := by decide +kernel
  obtain ⟨state, reached, cached⟩ := Option.map_eq_some_iff.mp possible
  exact ⟨distinct, state, reached, (transparent distinct).1 crowdedSchedule state reached,
    cached⟩

end Persona.Session
