import Persona.Proofs.Artifact.Cache

/-!
# The cache holds what was used last

What a cache ought to hold can be told from the history of its uses alone: the keys
that were used last, as many as fit, each with the output that was stored under it
last. An output counts as used when it is stored and when a look-up finds it, and a
look-up finds the outputs that ought to be held. The history never mentions entries,
an index or an eviction.

Whatever operations a new cache has gone through, it holds just that. The proof shows
what one use does to the most recent keys, that each operation does the same to the
entries, and then goes through the operations one by one.
-/

namespace Persona.Artifact

/-- A use of a key: an output is stored under it, or the output under it is found. -/
inductive Use where
  | stored (key : UInt64) (output : Text)
  | found (key : UInt64)

/-- The key that is used. -/
def Use.key : Use → UInt64
  | .stored key _ => key
  | .found key => key

/-- The output that a use stores under a key. -/
def Use.stores? (key : UInt64) : Use → Option Text
  | .stored other output => if other = key then some output else none
  | .found _ => none

/-- What has been used, the latest use first. -/
abbrev History : Type := List Use

namespace History

/-- The keys that have been used, each once, the latest used first. -/
def recent (history : History) : List UInt64 := (history.map Use.key).eraseDups

/-- The output that was stored under a key last. -/
def last? (history : History) (key : UInt64) : Option Text :=
  history.findSome? (Use.stores? key)

/-- What has been used since the last use of a key. -/
def since (history : History) (key : UInt64) : History := history.takeWhile fun use =>
    use.key != key

/-- An output was stored under the key, and fewer other keys than fit have been used since
its last use. -/
def Holds (history : History) (capacity : Nat) (key : UInt64) : Prop :=
  (∃ output, .stored key output ∈ history) ∧ (history.since key).recent.length < capacity

variable {history : History} {use : Use} {key other : UInt64} {output : Text} {m n : Nat}

/-- An output is the last one under a key if it was stored now, or was the last one and
nothing was stored now. -/
theorem last?_cons (use : Use) (history : History) (key : UInt64) :
    last? (use :: history) key = (use.stores? key).or (last? history key) := by
  unfold last?
  rw [List.findSome?_cons]
  cases use.stores? key <;> rfl

/-- What is stored under one key does not change the last output under another. -/
theorem last?_cons_of_ne (differ : key ≠ use.key) :
    last? (use :: history) key = last? history key := by
  rw [last?_cons]
  cases use with
  | stored other output =>
    simp [Use.stores?, show other ≠ key from fun same => differ same.symm]
  | found other => rfl

/-- There is a last output exactly if one was stored. -/
theorem last?_isSome_iff : (history.last? key).isSome ↔
      ∃ output, .stored key output ∈ history := by
  rw [last?, List.findSome?_isSome_iff]
  constructor
  · rintro ⟨use, member, stores⟩
    cases use with
    | stored other output =>
      simp only [Use.stores?] at stores
      split at stores
      case isTrue same => exact ⟨output, same ▸ member⟩
      case isFalse => cases stores
    | found other => cases stores
  · rintro ⟨output, member⟩
    exact ⟨_, member, by simp [Use.stores?]⟩

instance (history : History) (capacity : Nat) (key : UInt64) :
    Decidable (history.Holds capacity key) :=
  decidable_of_iff ((history.last? key).isSome ∧ (history.since key).recent.length < capacity)
    (and_congr_left fun _ => last?_isSome_iff)

/-- Among the elements with a property, the first occurrences are the first
occurrences among all. -/
theorem eraseDups_filter (keys : List UInt64) (p : UInt64 → Bool) :
    (keys.filter p).eraseDups = keys.eraseDups.filter p := by
  -- The duplicates of the head go first, so the induction is on the length.
  induction length : keys.length using Nat.strongRecOn generalizing keys with
  | ind length inductionHypothesis =>
    subst length
    cases keys with
    | nil => rfl
    | cons key rest =>
      have shorter : (rest.filter fun other => !other == key).length < (key :: rest).length :=
        Nat.lt_succ_of_le (List.length_filter_le _ rest)
      have others := inductionHypothesis _ shorter _ rfl
      rw [List.eraseDups_cons]
      by_cases kept : p key = true
      · rw [List.filter_cons_of_pos kept, List.filter_cons_of_pos kept, List.eraseDups_cons,
          ← others]
        simp only [List.filter_filter, Bool.and_comm]
      · rw [List.filter_cons_of_neg kept, List.filter_cons_of_neg kept, ← others,
          List.filter_filter]
        congr 1
        apply List.filter_congr
        intro other _
        by_cases same : other = key
        · subst same
          simp [kept]
        · simp [same]

/-- A use puts its key before the other keys. -/
theorem recent_cons_filter : recent (use :: history) =
      use.key :: (recent history).filter (· != use.key) := by
  unfold recent
  rw [List.map_cons, List.eraseDups_cons, eraseDups_filter]
  rfl

/-- Each key is there once. -/
theorem nodup_recent (history : History) : history.recent.Nodup := by
  induction history with
  | nil => exact List.nodup_nil
  | cons use earlier inductionHypothesis =>
    rw [recent_cons_filter]
    exact List.nodup_cons.mpr ⟨by simp, inductionHypothesis.filter _⟩

/-- A use moves its key to the front. -/
theorem recent_cons : recent (use :: history) = use.key :: (recent history).erase use.key := by
  rw [recent_cons_filter, (nodup_recent history).erase_eq_filter]

/-- The uses since the last use of a key are of other keys. -/
theorem not_mem_since : key ∉ (history.since key).map Use.key := by
  intro member
  obtain ⟨use, inSince, same⟩ := List.mem_map.mp member
  have other := List.all_eq_true.mp List.all_takeWhile use inSince
  simp [same] at other

/-- The keys that were used since the last use of a key are more recent than it,
and no others. -/
theorem recent_split (used : ∃ use ∈ history, use.key = key) :
    ∃ earlier, history.recent = (history.since key).recent ++ key :: earlier := by
  obtain ⟨rest, split⟩ : ∃ rest, history.map Use.key =
      (history.since key).map Use.key ++ key :: rest := by
    induction history with
    | nil => simp at used
    | cons use earlier inductionHypothesis =>
      by_cases same : use.key = key
      · exact ⟨earlier.map Use.key, by simp [since, same]⟩
      · obtain ⟨rest, split⟩ := inductionHypothesis (by simpa [same] using used)
        refine ⟨rest, ?_⟩
        simp only [since] at split
        simp [since, same, split]
  unfold recent
  rw [split, List.eraseDups_append, List.removeAll, List.filter_cons_of_pos,
    List.eraseDups_cons]
  · exact ⟨_, rfl⟩
  · simpa using not_mem_since

/-- A key is among the most recent ones exactly if it was used, and few enough other keys
were used since. -/
theorem mem_take_recent : key ∈ history.recent.take n ↔
    (∃ use ∈ history, use.key = key) ∧ (history.since key).recent.length < n := by
  by_cases used : ∃ use ∈ history, use.key = key
  case neg =>
    have absent : key ∉ history.recent := by
      rw [recent, List.mem_eraseDups, List.mem_map]
      exact used
    exact ⟨fun member => absurd (List.mem_of_mem_take member) absent, fun holds =>
      absurd holds.1 used⟩
  case pos =>
    obtain ⟨earlier, split⟩ := recent_split used
    have absent : key ∉ (history.since key).recent := by
      rw [recent, List.mem_eraseDups]
      exact not_mem_since
    rw [split, List.take_append, List.mem_append]
    constructor
    · rintro (member | member)
      · exact absurd (List.mem_of_mem_take member) absent
      · refine ⟨used, Nat.lt_of_sub_pos (Nat.pos_of_ne_zero fun none => ?_)⟩
        simp [none] at member
    · rintro ⟨-, fits⟩
      obtain ⟨more, room⟩ := Nat.exists_eq_succ_of_ne_zero (Nat.sub_ne_zero_of_lt fits)
      exact .inr (by simp [room])

/-- A key that is recent gives its place to itself. -/
theorem take_erase_of_mem {keys : List UInt64} (member : key ∈ keys.take (m + 1)) :
    (keys.erase key).take m = (keys.take (m + 1)).erase key := by
  induction keys generalizing m with
  | nil => simp
  | cons first rest inductionHypothesis =>
    by_cases same : first = key
    · subst same
      simp
    · have later : key ∈ rest.take m := by simpa [Ne.symm same] using member
      cases m with
      | zero => simp at later
      | succ m => simp [List.erase_cons_tail, same, inductionHypothesis later]

/-- A key that is not recent gives no place to others. -/
theorem take_erase_of_not_mem {keys : List UInt64} (absent : key ∉ keys.take m) :
    (keys.erase key).take m = keys.take m := by
  induction keys generalizing m with
  | nil => simp
  | cons first rest inductionHypothesis =>
    cases m with
    | zero => simp
    | succ m =>
      obtain ⟨differ, later⟩ : key ≠ first ∧ key ∉ rest.take m := by simpa using absent
      simp [List.erase_cons_tail, Ne.symm differ, inductionHypothesis later]

end History

/-- What can be done with a cache. -/
inductive Operation (ε : Type) where
  | get (key : UInt64)
  | set (key : UInt64) (output : Text)
  | getOrBuild (key : UInt64) (build : Unit → Except ε Text)

namespace Operation

variable {ε : Type}

/-- The cache after an operation. -/
def run (c : Cache) : Operation ε → Cache
  | .get key => (c.get key).2
  | .set key output => c.set key output
  | .getOrBuild key build => (c.getOrBuild key build).2

/-- Whether the operation looks a key up. -/
def looksUp : Operation ε → Bool
  | .get _ => true
  | .set _ _ => false
  | .getOrBuild _ _ => true

/-- What an operation uses: what it stores, or what it finds because it ought
to be held. -/
def use? (capacity : Nat) (history : History) : Operation ε → Option Use
  | .get key => if history.Holds capacity key then some (.found key) else none
  | .set key output => some (.stored key output)
  | .getOrBuild key build =>
    if history.Holds capacity key then some (.found key)
    else match build () with
      | .ok output => some (.stored key output)
      | .error _ => none

end Operation

/-- The history as it goes on with operations, where there is room for a
number of keys. -/
def History.extend {ε : Type} (capacity : Nat) (history : History)
    (operations : List (Operation ε)) : History :=
  operations.foldl (fun history operation => (operation.use? capacity history).toList ++
    history) history

namespace Cache

variable {ε : Type} {c : Cache} {history : History} {key : UInt64} {output : Text}
    {kept : List Entry}

/-- The cache after one operation after another. -/
def run (c : Cache) (operations : List (Operation ε)) :
    Cache := operations.foldl Operation.run c

/-- The cache holds the most recent keys of a history, each with its last output. -/
structure Recalls (c : Cache) (history : History) : Prop where
  tidy : c.Tidy
  positive : 1 ≤ c.capacity
  keys : c.keys = history.recent.take c.capacity
  outputs : ∀ entry ∈ c.entries, history.last? entry.1 = some entry.2

/-- Nothing is held when nothing has been used. -/
theorem recalls_ofCapacity (capacity : Int) : (ofCapacity capacity).Recalls [] where
  tidy := tidy_ofCapacity capacity
  positive := by
    unfold ofCapacity defaultCapacity
    dsimp only
    split <;> omega
  keys := by simp [ofCapacity, Cache.keys, History.recent]
  outputs := by simp [ofCapacity]

/-- What is held is what ought to be held. -/
theorem Recalls.mem_keys (recalls : c.Recalls history) :
    key ∈ c.keys ↔ history.Holds c.capacity key := by
  constructor
  · intro member
    obtain ⟨entry, inEntries, rfl⟩ := List.mem_map.mp member
    have stored : (history.last? entry.1).isSome := by
      rw [recalls.outputs entry inEntries]; rfl
    rw [recalls.keys, History.mem_take_recent] at member
    exact ⟨History.last?_isSome_iff.mp stored, member.2⟩
  · rintro ⟨⟨output, stored⟩, fits⟩
    rw [recalls.keys, History.mem_take_recent]
    exact ⟨⟨_, stored, rfl⟩, fits⟩

/-- No more is held than there is room for. -/
theorem Recalls.size_le (recalls : c.Recalls history) : c.size ≤ c.capacity := by
  calc c.size = c.keys.length := (List.length_map Prod.fst).symm
    _ = (history.recent.take c.capacity).length := by rw [recalls.keys]
    _ ≤ c.capacity := List.length_take_le _ _

/-- Using a key leaves, beside it, the most recent other keys: one fewer than fit. -/
theorem Recalls.keys_cons (recalls : c.Recalls history) {use : Use}
    (others : kept.map Prod.fst = (history.recent.erase use.key).take (c.capacity - 1)) :
    use.key :: kept.map Prod.fst = (History.recent (use :: history)).take c.capacity := by
  obtain ⟨m, room⟩ := Nat.exists_eq_add_of_le' recalls.positive
  rw [History.recent_cons, room, List.take_succ_cons, others, room]
  rfl

/-- What is kept beside a stored entry are the most recent other keys. -/
theorem Recalls.keys_kept (recalls : c.Recalls history) (keeps : c.Keeps key kept) :
    kept.map Prod.fst = (history.recent.erase key).take (c.capacity - 1) := by
  obtain ⟨m, room⟩ := Nat.exists_eq_add_of_le' recalls.positive
  have keys : c.keys = history.recent.take (m + 1) := room ▸ recalls.keys
  have length : c.size = min (m + 1) history.recent.length := by
    rw [← List.length_take, ← keys, Cache.keys, List.length_map, size]
  rw [room, Nat.add_sub_cancel]
  cases keeps with
  | replaced output held =>
    have member : key ∈ history.recent.take (m + 1) := keys ▸ List.mem_map_of_mem held
    rw [keys_erase recalls.tidy.distinct held, History.take_erase_of_mem member, ← keys]
    rfl
  | evicted new full =>
    have absent : key ∉ history.recent.take m := fun member =>
      new (keys ▸ List.take_subset_take_left _ (Nat.le_succ m) member)
    rw [History.take_erase_of_not_mem absent, List.map_dropLast, ← Cache.keys, keys,
      List.dropLast_eq_take, List.take_take]
    congr 1
    rw [List.length_take]
    omega
  | added new room =>
    have short : history.recent.length ≤ m := by omega
    have whole : c.keys = history.recent.take m := by
      rw [keys, List.take_of_length_le short, List.take_of_length_le (Nat.le_succ_of_le short)]
    rw [History.take_erase_of_not_mem (whole ▸ new), ← whole]
    rfl

/-- An entry that is used comes before what is kept beside it. -/
theorem Recalls.after_use {after : Cache} {use : Use} (recalls : c.Recalls history)
    (tidy : after.Tidy) (capacity : after.capacity = c.capacity)
    (entries : after.entries = (use.key, output) :: kept) (keeps : c.Keeps use.key kept)
    (last : History.last? (use :: history) use.key = some output) :
    after.Recalls (use :: history) where
  tidy := tidy
  positive := capacity ▸ recalls.positive
  keys := by
    rw [Cache.keys, entries, capacity]
    exact recalls.keys_cons (recalls.keys_kept keeps)
  outputs := by
    intro entry member
    rw [entries] at member
    obtain rfl | inKept := List.mem_cons.mp member
    · exact last
    · rw [History.last?_cons_of_ne (keeps.key_ne recalls.tidy inKept)]
      exact recalls.outputs entry (keeps.sublist.subset inKept)

/-- A failed look-up changes nothing but its count. -/
theorem Recalls.missed (recalls : c.Recalls history) :
    { c with misses := c.misses + 1 }.Recalls history :=
  ⟨⟨recalls.tidy.distinct, recalls.tidy.covered⟩, recalls.positive, recalls.keys,
    recalls.outputs⟩

/-- A look-up finds what ought to be held, with the output that was stored last,
and uses it. -/
theorem Recalls.get_cases (recalls : c.Recalls history) (key : UInt64) :
    (¬ history.Holds c.capacity key ∧ c.get key = (none, { c with misses := c.misses + 1 })) ∨
    ∃ output after, history.Holds c.capacity key ∧ history.last? key = some output ∧
      c.get key = (some output, after) ∧ after.Recalls (.found key :: history) ∧
      after.capacity = c.capacity ∧ after.hits + after.misses = c.hits + c.misses + 1 := by
  obtain ⟨absent, same⟩ | ⟨output, held, same⟩ := recalls.tidy.get_cases key
  · exact .inl ⟨fun holds => absent (recalls.mem_keys.mpr holds), same⟩
  · have last : history.last? key = some output := recalls.outputs _ held
    have tidy := recalls.tidy.get key
    rw [same] at tidy
    exact .inr ⟨output, _, recalls.mem_keys.mp (List.mem_map_of_mem held), last, same,
      recalls.after_use tidy rfl rfl (.replaced output held) last, rfl,
      Nat.add_right_comm _ _ _⟩

/-- Storing uses the key. -/
theorem Recalls.set (recalls : c.Recalls history) (key : UInt64) (output : Text) :
    (c.set key output).Recalls (.stored key output :: history) ∧
    (c.set key output).capacity = c.capacity ∧
      (c.set key output).hits + (c.set key output).misses = c.hits + c.misses := by
  obtain ⟨kept, index, keeps, same, tidy⟩ := recalls.tidy.set_cases key output
  rw [same] at tidy ⊢
  refine ⟨recalls.after_use tidy rfl rfl keeps ?_, rfl, rfl⟩
  simp [History.last?_cons, Use.stores?, Use.key]

/-- A look-up succeeds exactly if the output ought to be held. -/
theorem Recalls.get_isSome_iff (recalls : c.Recalls history) (key : UInt64) :
    (c.get key).1.isSome ↔ history.Holds c.capacity key := by
  obtain ⟨absent, same⟩ | ⟨output, after, holds, -, same, -⟩ := recalls.get_cases key
  · rw [same]
    exact iff_of_false Bool.false_ne_true absent
  · rw [same]
    exact iff_of_true rfl holds

/-- What a look-up finds is the output that was stored last. -/
theorem Recalls.last?_of_get (recalls : c.Recalls history)
    (found : (c.get key).1 = some output) :
    history.last? key = some output := by
  obtain ⟨-, same⟩ | ⟨held, after, -, last, same, -⟩ := recalls.get_cases key
  · rw [same] at found
    cases found
  · rw [same] at found
    rw [last, ← found]

/-- A failure to build comes after a failed look-up, and leaves no more than its
count behind. -/
theorem Recalls.getOrBuild_error (recalls : c.Recalls history)
    {build : Unit → Except ε Text} {e : ε} (fails : (c.getOrBuild key build).1 = .error e) :
    (c.getOrBuild key build).2 = { c with misses := c.misses + 1 } := by
  unfold getOrBuild at fails ⊢
  obtain ⟨-, same⟩ | ⟨output, after, -, -, same, -⟩ := recalls.get_cases key
  · rw [same] at fails ⊢
    cases built : build () with
    | error e => rfl
    | ok output => simp [built] at fails
  · rw [same] at fails
    cases fails

/-- Every operation does to the cache what its use does to the history, and counts
its look-up. -/
theorem Recalls.step (recalls : c.Recalls history) (operation : Operation ε) :
    (operation.run c).Recalls ((operation.use? c.capacity history).toList ++ history) ∧
      (operation.run c).capacity = c.capacity ∧
      (operation.run c).hits + (operation.run c).misses =
      c.hits + c.misses + operation.looksUp.toNat := by
  cases operation with
  | get key =>
    simp only [Operation.run, Operation.use?]
    obtain ⟨absent, same⟩ | ⟨output, after, holds, -, same, used, capacity, count⟩ :=
      recalls.get_cases key
    · rw [if_neg absent, same]
      exact ⟨recalls.missed, rfl, rfl⟩
    · rw [if_pos holds, same]
      exact ⟨used, capacity, count⟩
  | set key output => exact recalls.set key output
  | getOrBuild key build =>
    simp only [Operation.run, Operation.use?, getOrBuild]
    obtain ⟨absent, same⟩ | ⟨output, after, holds, -, same, used, capacity, count⟩ :=
      recalls.get_cases key
    · rw [if_neg absent, same]
      cases build () with
      | error e => exact ⟨recalls.missed, rfl, rfl⟩
      | ok output => exact recalls.missed.set key output
    · rw [if_pos holds, same]
      exact ⟨used, capacity, count⟩

/-- Operations keep the cache and the history together. -/
theorem Recalls.run (recalls : c.Recalls history) (operations : List (Operation ε)) :
    (c.run operations).Recalls (history.extend c.capacity operations) ∧
      (c.run operations).capacity = c.capacity ∧
      (c.run operations).hits + (c.run operations).misses =
        c.hits + c.misses + operations.countP Operation.looksUp := by
  induction operations generalizing c history with
  | nil => exact ⟨recalls, rfl, rfl⟩
  | cons operation rest inductionHypothesis =>
    obtain ⟨stepped, capacity, count⟩ := recalls.step operation
    obtain ⟨after, sameCapacity, total⟩ := inductionHypothesis stepped
    rw [capacity] at after sameCapacity
    refine ⟨after, sameCapacity, ?_⟩
    rw [List.countP_cons]
    unfold Cache.run at total ⊢
    rw [List.foldl_cons, total, count]
    cases operation.looksUp
    · simp
    · simp
      omega

/-- What is true of a cache that was made for a capacity and has gone through
operations. -/
structure Recency (asked : Int) (operations : List (Operation ε)) (c : Cache)
    (history : History) : Prop where
  /-- The entries and the index describe the same distinct keys. -/
  tidy : c.Tidy
  /-- There is room for as many outputs as were asked for, or for 256. -/
  capacity : c.capacity = if asked < 1 then 256 else asked.toNat
  /-- No more outputs are held than there is room for; and when there is no more room,
  there is one that can give way. -/
  bounded : c.size ≤ c.capacity ∧ 1 ≤ c.capacity ∧
    (c.capacity ≤ c.size → c.entries.getLast?.isSome)
  /-- The keys are the most recent ones, the latest used first. -/
  keys : c.keys = history.recent.take c.capacity
  /-- Each key has the output that was stored under it last. -/
  outputs : ∀ entry ∈ c.entries, history.last? entry.1 = some entry.2
  /-- A look-up succeeds exactly if an output was stored under the key and fewer other
  keys than fit were used since the key was used last. -/
  hit : ∀ key, (c.get key).1.isSome ↔
    (∃ output, .stored key output ∈ history) ∧ (history.since key).recent.length < c.capacity
  /-- What a look-up finds is the output that was stored last. -/
  found : ∀ key output, (c.get key).1 = some output → history.last? key = some output
  /-- A failure to build changes nothing but the count of failed look-ups. -/
  failed : ∀ (key : UInt64) (build : Unit → Except ε Text) (e : ε),
    (c.getOrBuild key build).1 = .error e →
    (c.getOrBuild key build).2 = { c with misses := c.misses + 1 }
  /-- Every look-up is counted once. -/
  lookUps : c.hits + c.misses = operations.countP Operation.looksUp

/-- Whatever operations a new cache goes through, it holds what its history says: the keys
that were used last, as many as fit, with the outputs that were stored last. -/
theorem run_recency (asked : Int) (operations : List (Operation ε)) :
    Recency asked operations ((ofCapacity asked).run operations)
      (History.extend (ofCapacity asked).capacity [] operations) := by
  obtain ⟨recalls, capacity, count⟩ := (recalls_ofCapacity asked).run operations
  constructor
  case tidy => exact recalls.tidy
  case capacity => exact capacity
  case bounded =>
    refine ⟨recalls.size_le, recalls.positive, fun full => ?_⟩
    rw [List.getLast?_isSome]
    rintro empty
    have none : ((ofCapacity asked).run operations).size = 0 := by
      rw [size, empty, List.length_nil]
    exact absurd recalls.positive (by omega)
  case keys => exact recalls.keys
  case outputs => exact recalls.outputs
  case hit => exact fun key => recalls.get_isSome_iff key
  case found => exact fun key output => recalls.last?_of_get
  case failed => exact fun key build e => recalls.getOrBuild_error
  case lookUps => simpa [ofCapacity] using count

end Cache

end Persona.Artifact
