import Mathlib.Data.List.Nodup
import Mathlib.Data.List.Perm.Basic
import Persona.Artifact.Cache

/-!
# What the cache holds

The entries and the index are changed separately, and they have to stay in step: no
key has two entries, and the index leads from each key to its entry and to nothing
else. Every operation keeps them so. While they are in step, an operation can be told
by what it does to the entries alone, and that is all the rest of the theory uses.
-/

namespace Persona.Artifact

namespace Index

variable {index : Index} {entries kept : List Entry} {key : UInt64} {output : Text}
    {entry : Entry}

/-- The index leads from each key to the entry that has it: there is one slot for a key,
and a slot for an entry exactly if the entry is there. -/
structure Covers (index : Index) (entries : List Entry) : Prop where
  distinct : (index.map Prod.fst).Nodup
  linked : ∀ key entry, (key, entry) ∈ index ↔ entry ∈ entries ∧ entry.1 = key

/-- With distinct keys, the entry under a key is the one that was put there. -/
theorem entry?_eq_some_iff (distinct : (index.map Prod.fst).Nodup) :
    index.entry? key = some entry ↔ (key, entry) ∈ index := by
  unfold entry?
  induction index with
  | nil => simp
  | cons slot rest inductionHypothesis =>
    obtain ⟨other, held⟩ := slot
    obtain ⟨fresh, restDistinct⟩ := List.nodup_cons.mp distinct
    by_cases same : key = other
    · subst same
      have absent : (key, entry) ∉ rest := fun member =>
        fresh (List.mem_map.mpr ⟨_, member, rfl⟩)
      simp [absent, eq_comm]
    · have differ : (key == other) = false := by simpa using same
      simp [List.lookup_cons, differ, inductionHypothesis restDistinct, same]

/-- What is left without a key. -/
theorem mem_without {slot : UInt64 × Entry} : slot ∈ index.without key ↔ slot ∈ index ∧
    slot.1 ≠ key := by
  simp [without]

/-- Without a key the index leads to the entries with other keys. -/
theorem Covers.without (covers : index.Covers entries)
    (left : ∀ entry, entry ∈ kept ↔ entry ∈ entries ∧ entry.1 ≠ key) :
    (index.without key).Covers kept where
  distinct := (List.filter_sublist.map Prod.fst).nodup covers.distinct
  linked := by
    intro other entry
    rw [mem_without, covers.linked, left]
    constructor
    · rintro ⟨⟨member, rfl⟩, differ⟩
      exact ⟨⟨member, differ⟩, rfl⟩
    · rintro ⟨⟨member, differ⟩, rfl⟩
      exact ⟨⟨member, rfl⟩, differ⟩

/-- With an entry put in, the index leads to it and to the entries with other keys. -/
theorem Covers.put (covers : index.Covers entries)
    (left : ∀ entry, entry ∈ kept ↔ entry ∈ entries ∧ entry.1 ≠ key) :
    (index.put (key, output)).Covers ((key, output) :: kept) := by
  have others := covers.without left
  constructor
  case distinct =>
    refine List.nodup_cons.mpr ⟨?_, others.distinct⟩
    intro member
    obtain ⟨slot, inOthers, same⟩ := List.mem_map.mp member
    exact (mem_without.mp inOthers).2 same
  case linked =>
    intro other entry
    unfold Index.put
    rw [List.mem_cons, List.mem_cons, others.linked]
    constructor
    · rintro (same | ⟨member, rfl⟩)
      · cases same
        exact ⟨.inl rfl, rfl⟩
      · exact ⟨.inr member, rfl⟩
    · rintro ⟨rfl | member, rfl⟩
      · exact .inl rfl
      · exact .inr ⟨member, rfl⟩

end Index

namespace Cache

variable {c after : Cache} {key : UInt64} {output : Text} {entry : Entry} {kept : List Entry}

/-- The keys of the entries, the latest used first. -/
def keys (c : Cache) : List UInt64 := c.entries.map Prod.fst

/-- The entries and the index describe the same distinct keys. -/
structure Tidy (c : Cache) : Prop where
  distinct : c.keys.Nodup
  covered : c.index.Covers c.entries

/-- Nothing is in an empty cache. -/
theorem tidy_ofCapacity (capacity : Int) : (ofCapacity capacity).Tidy :=
  ⟨List.nodup_nil, List.nodup_nil, by simp [ofCapacity]⟩

/-- What the index finds under a key is the entry with the key. -/
theorem Tidy.entry?_eq_some_iff (tidy : c.Tidy) :
    c.index.entry? key = some entry ↔ entry ∈ c.entries ∧ entry.1 = key := by
  rw [Index.entry?_eq_some_iff tidy.covered.distinct, tidy.covered.linked]

/-- The index finds nothing under a key that no entry has. -/
theorem Tidy.entry?_eq_none_iff (tidy : c.Tidy) : c.index.entry? key = none ↔
    key ∉ c.keys := by
  rw [Option.eq_none_iff_forall_ne_some, keys, List.mem_map]
  simp only [ne_eq, tidy.entry?_eq_some_iff, not_exists]

/-- Without an entry the other entries are left, and they have other keys. -/
theorem Tidy.mem_erase (tidy : c.Tidy) (held : (key, output) ∈ c.entries) :
    entry ∈ c.entries.erase (key, output) ↔ entry ∈ c.entries ∧ entry.1 ≠ key := by
  rw [(List.Nodup.of_map Prod.fst tidy.distinct).mem_erase_iff, and_comm]
  refine and_congr_right fun inEntries => not_congr ?_
  constructor
  · rintro rfl
    rfl
  · exact fun same => List.inj_on_of_nodup_map tidy.distinct inEntries held same

/-- Without an entry its key is gone and the other keys keep their order. -/
theorem keys_erase {entries : List Entry} (distinct : (entries.map Prod.fst).Nodup)
    (held : entry ∈ entries) :
    (entries.erase entry).map Prod.fst = (entries.map Prod.fst).erase entry.1 := by
  induction entries with
  | nil => cases held
  | cons first rest inductionHypothesis =>
    obtain ⟨fresh, restDistinct⟩ := List.nodup_cons.mp distinct
    by_cases same : first = entry
    · subst same
      simp
    · have later : entry ∈ rest := (List.mem_cons.mp held).resolve_left fun isFirst =>
        same isFirst.symm
      have otherKey : first.1 ≠ entry.1 := fun sameKey =>
        fresh (sameKey ▸ List.mem_map_of_mem later)
      rw [List.erase_cons_tail (by simpa using same), List.map_cons, List.map_cons,
        List.erase_cons_tail (by simpa using otherKey), inductionHypothesis restDistinct later]

/-- A look-up finds nothing, or finds the entry with the key and moves it to the front. -/
theorem Tidy.get_cases (tidy : c.Tidy) (key : UInt64) :
    (key ∉ c.keys ∧ c.get key = (none, { c with misses := c.misses + 1 })) ∨
    ∃ output, (key, output) ∈ c.entries ∧ c.get key =
      (some output,
        { c with
          entries := (key, output) :: c.entries.erase (key, output)
          hits := c.hits + 1 }) := by
  cases found : c.index.entry? key with
  | none => exact .inl ⟨tidy.entry?_eq_none_iff.mp found, by simp [get, found]⟩
  | some entry =>
    obtain ⟨inEntries, rfl⟩ := tidy.entry?_eq_some_iff.mp found
    exact .inr ⟨entry.2, inEntries, by simp [get, found, toFront, inEntries]⟩

/-- The entries that are kept beside a stored one: those with other keys; and all of them
or, when the cache is full, all but the last, if the key is new. -/
inductive Keeps (c : Cache) (key : UInt64) : (kept : List Entry) → Prop where
  | replaced (output : Text) (held : (key, output) ∈ c.entries) :
      Keeps c key (c.entries.erase (key, output))
  | evicted (new : key ∉ c.keys) (full : c.capacity ≤ c.size) : Keeps c key c.entries.dropLast
  | added (new : key ∉ c.keys) (room : c.size < c.capacity) : Keeps c key c.entries

/-- What is kept was there, in the same order. -/
theorem Keeps.sublist (keeps : c.Keeps key kept) : kept.Sublist c.entries := by
  cases keeps with
  | replaced output held => exact List.erase_sublist
  | evicted new full => exact List.dropLast_sublist c.entries
  | added new room => exact List.Sublist.refl c.entries

/-- Entries with a new key would have been new. -/
theorem ne_of_new (new : key ∉ c.keys) (member : entry ∈ c.entries) : entry.1 ≠ key := by
  rintro rfl
  exact new (List.mem_map_of_mem member)

/-- What is kept has other keys. -/
theorem Keeps.key_ne (tidy : c.Tidy) (keeps : c.Keeps key kept) (member : entry ∈ kept) :
    entry.1 ≠ key := by
  cases keeps with
  | replaced output held => exact ((tidy.mem_erase held).mp member).2
  | evicted new full => exact ne_of_new new ((List.dropLast_sublist c.entries).subset member)
  | added new room => exact ne_of_new new member

/-- The last entry gives way in the index as it does among the entries. -/
theorem Tidy.evict_cases (tidy : c.Tidy) :
    ∃ index, c.evict = { c with entries := c.entries.dropLast, index := index } ∧
      index.Covers c.entries.dropLast := by
  obtain empty | ⟨others, oldest, split⟩ := List.eq_nil_or_concat' c.entries
  · have sameEntries : c.entries.dropLast = c.entries := by simp [empty]
    have unchanged : c.evict = c := by simp [evict, empty]
    rw [sameEntries]
    exact ⟨c.index, unchanged, tidy.covered⟩
  · have distinct : (others.map Prod.fst).Nodup ∧ oldest.1 ∉ others.map Prod.fst := by
      have whole := tidy.distinct
      rw [keys, split, List.map_append, List.map_singleton, List.nodup_append'] at whole
      exact ⟨whole.1, List.disjoint_singleton.mp whole.2.2⟩
    refine ⟨c.index.without oldest.1, by simp [evict, split], ?_⟩
    rw [split, List.dropLast_concat]
    apply Index.Covers.without (split ▸ tidy.covered)
    intro entry
    rw [List.mem_append, List.mem_singleton]
    constructor
    · exact fun member => ⟨.inl member, fun same =>
        distinct.2 (same ▸ List.mem_map_of_mem member)⟩
    · rintro ⟨member | rfl, differ⟩
      · exact member
      · exact absurd rfl differ

/-- Storing puts an entry in front of what is kept, and entries and index stay in step. -/
theorem Tidy.set_cases (tidy : c.Tidy) (key : UInt64) (output : Text) :
    ∃ kept index, c.Keeps key kept ∧
      c.set key output = { c with entries := (key, output) :: kept, index := index } ∧
      (c.set key output).Tidy := by
  suffices stored : ∃ kept index, c.Keeps key kept ∧ index.Covers ((key, output) :: kept) ∧
      c.set key output = { c with entries := (key, output) :: kept, index := index } by
    obtain ⟨kept, index, keeps, covers, same⟩ := stored
    refine ⟨kept, index, keeps, same, ?_⟩
    rw [same]
    refine ⟨List.nodup_cons.mpr ⟨?_, (keeps.sublist.map Prod.fst).nodup tidy.distinct⟩, covers⟩
    intro member
    obtain ⟨entry, inKept, sameKey⟩ := List.mem_map.mp member
    exact keeps.key_ne tidy inKept sameKey
  cases found : c.index.entry? key with
  | some old =>
    obtain ⟨inEntries, rfl⟩ := tidy.entry?_eq_some_iff.mp found
    exact ⟨_, _, .replaced old.2 inEntries, tidy.covered.put fun entry =>
      tidy.mem_erase inEntries,
      by simp [set, found]⟩
  | none =>
    have new := tidy.entry?_eq_none_iff.mp found
    have fresh {kept : List Entry} (keeps : c.Keeps key kept) (entry : Entry) :
        entry ∈ kept ↔ entry ∈ kept ∧ entry.1 ≠ key :=
      ⟨fun member => ⟨member, keeps.key_ne tidy member⟩, And.left⟩
    by_cases full : c.capacity ≤ c.entries.length
    · obtain ⟨index, evicted, covers⟩ := tidy.evict_cases
      have keeps : c.Keeps key c.entries.dropLast := .evicted new full
      exact ⟨_, _, keeps, covers.put (fresh keeps), by simp [set, found, full, evicted]⟩
    · have keeps : c.Keeps key c.entries := .added new (Nat.lt_of_not_le full)
      exact ⟨_, _, keeps, tidy.covered.put (fresh keeps), by simp [set, found, full]⟩

/-- A look-up keeps entries and index in step. -/
theorem Tidy.get (tidy : c.Tidy) (key : UInt64) : (c.get key).2.Tidy := by
  obtain ⟨-, same⟩ | ⟨output, held, same⟩ := tidy.get_cases key
  · rw [same]
    exact ⟨tidy.distinct, tidy.covered⟩
  · rw [same]
    have moved : ((key, output) :: c.entries.erase (key, output)).Perm c.entries :=
      (List.perm_cons_erase held).symm
    refine ⟨(moved.map Prod.fst).nodup_iff.mpr tidy.distinct, tidy.covered.distinct, ?_⟩
    intro other entry
    rw [moved.mem_iff]
    exact tidy.covered.linked other entry

/-- Storing keeps entries and index in step. -/
theorem Tidy.set (tidy : c.Tidy) (key : UInt64) (output : Text) : (c.set key output).Tidy := by
  obtain ⟨_, _, -, -, stored⟩ := tidy.set_cases key output
  exact stored

/-- What a look-up finds is an entry, and the entries afterwards were there before. -/
theorem Tidy.get_some (tidy : c.Tidy) (found : c.get key = (some output, after)) :
    (key, output) ∈ c.entries ∧ ∀ entry ∈ after.entries, entry ∈ c.entries := by
  obtain ⟨-, same⟩ | ⟨held, inEntries, same⟩ := tidy.get_cases key
  · rw [same] at found
    cases found
  · rw [same] at found
    cases found
    exact ⟨inEntries, fun entry member => (List.perm_cons_erase inEntries).symm.subset member⟩

/-- A look-up that finds nothing leaves the entries as they are. -/
theorem get_none (found : c.get key = (none, after)) : after.entries = c.entries := by
  unfold get at found
  split at found
  · cases found
  · cases found
    rfl

/-- Storing adds only what is stored. -/
theorem Tidy.mem_set (tidy : c.Tidy) (member : entry ∈ (c.set key output).entries) :
    entry = (key, output) ∨ entry ∈ c.entries := by
  obtain ⟨kept, index, keeps, same, -⟩ := tidy.set_cases key output
  rw [same] at member
  exact (List.mem_cons.mp member).imp_right fun inKept => keeps.sublist.subset inKept

end Cache

end Persona.Artifact
