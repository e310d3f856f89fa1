/-
# Entries in insertion order

Maps whose order is part of their meaning: the properties of a resource, the attributes of a
cookbook, the variables of a role. Putting a key that is present replaces its value where it
stands; a new key goes last.
-/

namespace Rolewright

/-- Pairs of a key and a value, in the order in which the keys were first put. -/
abbrev Entries (α : Type) := List (String × α)

namespace Entries

variable {α : Type}

/-- The value of a key. -/
def get? (entries : Entries α) (key : String) : Option α :=
  match entries with
  | [] => none
  | (k, v) :: rest => if k = key then some v else get? rest key

/-- Gives a key a value: in place when the key is present, at the end otherwise. -/
def put (entries : Entries α) (key : String) (value : α) : Entries α :=
  match entries with
  | [] => [(key, value)]
  | (k, v) :: rest => if k = key then (k, value) :: rest else (k, v) :: put rest key value

/-- Gives a key a value unless it has one. -/
def putMissing (entries : Entries α) (key : String) (value : α) : Entries α :=
  if (entries.get? key).isSome then entries else entries.put key value

/-- The entries that putting the pairs one after the other gives. -/
def ofPairs (pairs : List (String × α)) : Entries α :=
  pairs.foldl (fun entries (key, value) => entries.put key value) []

/-- The keys, in order. -/
def keys (entries : Entries α) : List String :=
  entries.map (·.1)

/-- Entries sorted by key. -/
def sorted (entries : Entries α) : Entries α :=
  entries.mergeSort fun a b => !decide (b.1 < a.1)

/-- What a key holds after a put. -/
theorem get?_put (entries : Entries α) (key other : String) (value : α) :
    (entries.put key value).get? other =
      if key = other then some value else entries.get? other := by
  induction entries with
  | nil => simp [put, get?]
  | cons entry rest ih =>
    obtain ⟨k, v⟩ := entry
    by_cases hk : k = key
    · subst hk
      by_cases h : k = other <;> simp [put, get?, h]
    · by_cases h : k = other
      · subst h
        have hk' : ¬ key = k := fun e => hk e.symm
        simp [put, get?, hk, hk']
      · simp [put, get?, hk, h, ih]

/-- Of several pairs with one key the last one counts. -/
theorem get?_ofPairs (pairs : List (String × α)) (key : String) :
    (ofPairs pairs).get? key = ((pairs.filter (·.1 = key)).getLast?).map (·.2) := by
  have after (entries : Entries α) :
      (pairs.foldl (fun entries (key, value) => entries.put key value) entries).get? key =
        (((pairs.filter (·.1 = key)).getLast?).map (·.2)).or (entries.get? key) := by
    induction pairs generalizing entries with
    | nil => rfl
    | cons pair pairs ih =>
      rw [List.foldl_cons, ih, get?_put, List.filter_cons]
      by_cases same : pair.1 = key
      · rw [if_pos same, if_pos (decide_eq_true same), List.getLast?_cons]
        cases (pairs.filter (·.1 = key)).getLast? <;> rfl
      · rw [if_neg same, if_neg (by simpa using same)]
  exact (after []).trans Option.or_none
/-- A key of some pair has a value. -/
theorem isSome_get?_ofPairs {pairs : List (String × α)} {key : String} {value : α}
    (member : (key, value) ∈ pairs) : ((ofPairs pairs).get? key).isSome := by
  rw [get?_ofPairs, Option.isSome_map, List.getLast?_isSome]
  exact List.ne_nil_of_mem (List.mem_filter.mpr ⟨member, decide_eq_true rfl⟩)

/-- Putting keeps the keys in their order and adds a new one at the end. -/
theorem keys_put (entries : Entries α) (key : String) (value : α) :
    (entries.put key value).keys =
      if key ∈ entries.keys then entries.keys else entries.keys ++ [key] := by
  induction entries with
  | nil => simp [put, keys]
  | cons entry rest ih =>
    obtain ⟨k, v⟩ := entry
    simp only [keys] at ih
    by_cases hk : k = key
    · simp [put, keys, hk]
    · have hk' : ¬ key = k := fun e => hk e.symm
      by_cases h : key ∈ rest.map (·.1)
      · simp [put, keys, hk, ih, h]
      · simp [put, keys, hk, hk', ih, h]

/-- A value that is found is one of the entries. -/
theorem mem_of_get? {entries : Entries α} {key : String} {value : α}
    (found : entries.get? key = some value) : (key, value) ∈ entries := by
  induction entries with
  | nil => cases found
  | cons entry rest ih =>
    obtain ⟨k, v⟩ := entry
    rw [get?] at found
    split at found
    · rename_i same
      rw [same, Option.some.inj found]
      exact .head _
    · exact .tail _ (ih found)

/-- Where keys differ every entry is found under its key. -/
theorem get?_of_mem {entries : Entries α} (distinct : entries.keys.Nodup) {key : String}
    {value : α} (member : (key, value) ∈ entries) : entries.get? key = some value := by
  induction entries with
  | nil => cases member
  | cons entry rest ih =>
    obtain ⟨k, v⟩ := entry
    obtain ⟨fresh, distinct⟩ := List.nodup_cons.mp distinct
    rcases List.mem_cons.mp member with same | later
    · obtain ⟨rfl, rfl⟩ := Prod.mk.inj same
      exact if_pos rfl
    · have other : k ≠ key := fun same => fresh (same ▸ List.mem_map.mpr ⟨_, later, rfl⟩)
      rw [get?, if_neg other]
      exact ih distinct later

/-- A key that is not there has no value. -/
theorem get?_eq_none {entries : Entries α} {key : String} (fresh : key ∉ entries.keys) :
    entries.get? key = none := by
  cases found : entries.get? key with
  | none => rfl
  | some value => exact absurd (List.mem_map.mpr ⟨_, mem_of_get? found, rfl⟩) fresh

/-- Changing the values changes what is found, and not where. -/
theorem get?_map {β : Type} (f : α → β) (entries : Entries α) (key : String) :
    get? (entries.map fun (k, v) => (k, f v)) key = (entries.get? key).map f := by
  induction entries with
  | nil => rfl
  | cons entry rest ih =>
    simp only [List.map_cons, get?]
    split
    · rfl
    · exact ih

/-- A new key goes last. -/
theorem put_of_not_mem {entries : Entries α} {key : String} (fresh : key ∉ entries.keys)
    (value : α) : entries.put key value = entries ++ [(key, value)] := by
  induction entries with
  | nil => rfl
  | cons entry rest ih =>
    have other : entry.1 ≠ key := fun same => fresh (same ▸ .head _)
    have later : key ∉ keys rest := fun member => fresh (.tail _ member)
    rw [put, if_neg other, ih later, List.cons_append]

end Entries

end Rolewright
