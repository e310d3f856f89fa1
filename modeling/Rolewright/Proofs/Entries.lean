/-
# Entries and the pairs they come from

Putting pairs one after the other leaves one entry for each key among them: none is lost exactly if
no two pairs have the same key (`Entries.length_ofPairs_eq_iff`), and then the entries are the pairs
themselves (`Entries.ofPairs_of_nodup`).
-/

import Mathlib.Data.List.Dedup
import Mathlib.Data.List.Induction
import Rolewright.Entries

namespace Rolewright.Entries

variable {α : Type}

/-- In entries behind others those before count first. -/
theorem get?_append (entries others : Entries α) (key : String) :
    get? (entries ++ others) key = (entries.get? key).or (others.get? key) := by
  induction entries with
  | nil => rfl
  | cons entry rest ih =>
      rw [List.cons_append, get?, get?, ih]
      split <;> rfl

/-- A key of some entry has a value. -/
theorem isSome_get?_of_mem {entries : Entries α} {key : String} {value : α}
    (member : (key, value) ∈ entries) : (entries.get? key).isSome = true := by
  obtain ⟨before, after, rfl⟩ := List.append_of_mem member
  rw [get?_append, get?, if_pos rfl, Option.isSome_or, Option.isSome_some, Bool.or_true]

/-- A key that is there has a value. -/
theorem exists_get?_eq {entries : Entries α} {key : String} (member : key ∈ entries.keys) :
    ∃ value, entries.get? key = some value := by
  obtain ⟨⟨_, value⟩, held, rfl⟩ := List.mem_map.mp member
  exact Option.isSome_iff_exists.mp (isSome_get?_of_mem held)

theorem nodup_keys_put {entries : Entries α} (distinct : entries.keys.Nodup) (key : String)
    (value : α) : (entries.put key value).keys.Nodup := by
  rw [keys_put]
  split
  · exact distinct
  · rename_i fresh
    refine List.nodup_append.mpr ⟨distinct, List.nodup_singleton key, ?_⟩
    rintro other member _ (_ | ⟨_, ⟨⟩⟩) rfl
    exact fresh member

theorem nodup_keys_ofPairs (pairs : List (String × α)) : (ofPairs pairs).keys.Nodup := by
  have kept (entries : Entries α) (distinct : entries.keys.Nodup) :
      (pairs.foldl (fun entries pair => entries.put pair.1 pair.2) entries).keys.Nodup := by
    induction pairs generalizing entries with
    | nil => exact distinct
    | cons pair pairs ih => exact ih _ (nodup_keys_put distinct _ _)
  exact kept [] List.nodup_nil

theorem mem_keys_ofPairs_iff {pairs : List (String × α)} {key : String} :
    key ∈ (ofPairs pairs).keys ↔ key ∈ pairs.map (·.1) := by
  constructor
  · intro member
    obtain ⟨⟨_, value⟩, held, rfl⟩ := List.mem_map.mp member
    have found := get?_of_mem (nodup_keys_ofPairs pairs) held
    rw [get?_ofPairs] at found
    obtain ⟨pair, last, -⟩ := Option.map_eq_some_iff.mp found
    obtain ⟨among, same⟩ := List.mem_filter.mp (List.mem_of_getLast? last)
    exact List.mem_map.mpr ⟨pair, among, of_decide_eq_true same⟩
  · intro member
    obtain ⟨⟨_, value⟩, held, rfl⟩ := List.mem_map.mp member
    obtain ⟨last, found⟩ := Option.isSome_iff_exists.mp (isSome_get?_ofPairs held)
    exact List.mem_map.mpr ⟨_, mem_of_get? found, rfl⟩

/-- Putting pairs keeps their number just when no two of them have one key. -/
theorem length_ofPairs_eq_iff {pairs : List (String × α)} :
    (ofPairs pairs).length = pairs.length ↔ (pairs.map (·.1)).Nodup := by
  have perm : (ofPairs pairs).keys.Perm (pairs.map (·.1)).dedup :=
    (List.perm_ext_iff_of_nodup (nodup_keys_ofPairs pairs) (List.nodup_dedup _)).mpr fun key => by
      rw [mem_keys_ofPairs_iff, List.mem_dedup]
  have length : (ofPairs pairs).length = (pairs.map (·.1)).dedup.length := by
    rw [← perm.length_eq, keys, List.length_map]
  rw [length, ← List.dedup_eq_self]
  constructor
  · intro same
    exact (List.dedup_sublist _).eq_of_length (same.trans (List.length_map _).symm)
  · intro same
    rw [same, List.length_map]

/-- Pairs with different keys become entries as they stand. -/
theorem ofPairs_of_nodup {pairs : List (String × α)} (distinct : (pairs.map (·.1)).Nodup) :
    ofPairs pairs = pairs := by
  induction pairs using List.reverseRecOn with
  | nil => rfl
  | append_singleton pairs pair ih =>
      rw [List.map_append] at distinct
      obtain ⟨before, -, apart⟩ := List.nodup_append.mp distinct
      have fresh : pair.1 ∉ keys pairs := fun member => apart _ member _ (.head _) rfl
      have whole : ofPairs (pairs ++ [pair]) = (ofPairs pairs).put pair.1 pair.2 := by
        rw [ofPairs, List.foldl_append]
        rfl
      rw [whole, ih before, put_of_not_mem fresh]

end Rolewright.Entries
