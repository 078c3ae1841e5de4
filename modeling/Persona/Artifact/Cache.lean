import Persona.Text

/-!
# The artifact cache

A cache of outputs by key. It holds at most as many as its capacity; when it is
full, the output that has not been used for the longest time gives way. Reading
an output counts as using it.

Two things are kept side by side: the entries in the order of their last use, the
latest first, and an index from keys to entries. An entry is found through the
index only; the order says which one gives way.
-/

namespace Persona.Artifact

/-- An output with the key it is kept under. -/
abbrev Entry : Type := UInt64 × Text

/-- The entry of each key that has one. -/
abbrev Index : Type := List (UInt64 × Entry)

namespace Index

/-- The entry under a key. -/
def entry? (index : Index) (key : UInt64) : Option Entry := index.lookup key

/-- The index without a key. -/
def without (index : Index) (key : UInt64) : Index := index.filter fun slot => slot.1 != key

/-- The index with an entry under its key, in place of any earlier one. -/
def put (index : Index) (entry : Entry) : Index := (entry.1, entry) :: index.without entry.1

end Index

/-- A cache with its counts of successful and failed look-ups. -/
structure Cache where
  capacity : Nat
  entries : List Entry
  index : Index
  hits : Nat
  misses : Nat

namespace Cache

/-- The capacity where none is asked for. -/
def defaultCapacity : Nat := 256

/-- An empty cache; a capacity below one asks for the default. -/
def ofCapacity (capacity : Int) : Cache :=
  ⟨if capacity < 1 then defaultCapacity else capacity.toNat, [], [], 0, 0⟩

/-- The number of outputs held. -/
def size (c : Cache) : Nat := c.entries.length

/-- The entries with one of them moved to the front. -/
def toFront (entries : List Entry) (entry : Entry) : List Entry :=
  if entries.contains entry then entry :: entries.erase entry else entries

/-- Look an output up, which makes it the latest used. -/
def get (c : Cache) (key : UInt64) : Option Text × Cache :=
  match c.index.entry? key with
  | some entry =>
    (some entry.2, { c with entries := toFront c.entries entry, hits := c.hits + 1 })
  | none => (none, { c with misses := c.misses + 1 })

/-- Let the entry give way that has not been used for the longest time. -/
def evict (c : Cache) : Cache :=
  match c.entries.getLast? with
  | some oldest => { c with entries := c.entries.dropLast, index := c.index.without oldest.1 }
  | none => c

/-- Store an output as the latest used. It takes the place of an earlier one under its
key; a new key that finds the cache full makes another entry give way. -/
def set (c : Cache) (key : UInt64) (output : Text) : Cache :=
  let kept := match c.index.entry? key with
    | some old => { c with entries := c.entries.erase old }
    | none => if c.capacity ≤ c.entries.length then c.evict else c
  { kept with entries := (key, output) :: kept.entries, index := kept.index.put (key, output) }

/-- The output for a key, made by `build` when the cache does not hold it. Only outputs
are stored; a failure leaves nothing but the failed look-up behind. -/
def getOrBuild {ε : Type} (c : Cache) (key : UInt64) (build : Unit → Except ε Text) :
    Except ε Text × Cache :=
  match c.get key with
  | (some output, after) => (.ok output, after)
  | (none, after) =>
    match build () with
    | .error e => (.error e, after)
    | .ok output => (.ok output, after.set key output)

end Cache

end Persona.Artifact
