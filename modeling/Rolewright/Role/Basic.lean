/-
# Roles

A role as the files it consists of: texts under distinct relative paths, in the order of the paths.
The order is part of the type, so two roles with the same files are equal.
-/

import Rolewright.Entries

namespace Rolewright

/-- The files of a role, by path. -/
structure Role where
  files : List (String × String)
  increasing : files.Pairwise fun a b => a.1 < b.1
deriving DecidableEq, Repr

namespace Role

/-- A role without files. -/
def empty : Role := ⟨[], .nil⟩

instance : Inhabited Role := ⟨empty⟩

/-- The content of the file at a path. -/
def get? (role : Role) (path : String) : Option String :=
  Entries.get? role.files path

/-- Whether there is a file at a path. -/
def contains (role : Role) (path : String) : Bool :=
  (role.get? path).isSome

/-- The paths of the files, in order. -/
def paths (role : Role) : List String :=
  role.files.map (·.1)

/-- How many files there are. -/
def size (role : Role) : Nat :=
  role.files.length

/-- Whether there are no files. -/
def isEmpty (role : Role) : Bool :=
  role.files.isEmpty

/-- Puts a file in its place among others, over a file of the same path. -/
def place (path content : String) : List (String × String) → List (String × String)
  | [] => [(path, content)]
  | (p, c) :: rest =>
    if path < p then (path, content) :: (p, c) :: rest
    else if p < path then (p, c) :: place path content rest
    else (path, content) :: rest

/-- Two paths of which neither comes first are the same. -/
theorem eq_of_not_lt {a b : String} (first : ¬ a < b) (second : ¬ b < a) : a = b :=
  String.le_antisymm (String.not_lt.mp second) (String.not_lt.mp first)

/-- The paths after placing a file. -/
theorem mem_place {path content : String} {files : List (String × String)} {file : String × String}
    (member : file ∈ place path content files) : file.1 = path ∨ file ∈ files := by
  induction files with
  | nil =>
    simp only [place, List.mem_singleton] at member
    exact .inl (by rw [member])
  | cons entry rest ih =>
    obtain ⟨p, c⟩ := entry
    simp only [place] at member
    split at member
    · rcases List.mem_cons.mp member with rfl | h
      · exact .inl rfl
      · exact .inr h
    · split at member
      · rcases List.mem_cons.mp member with rfl | h
        · exact .inr (.head _)
        · exact (ih h).imp id (.tail _)
      · rcases List.mem_cons.mp member with rfl | h
        · exact .inl rfl
        · exact .inr (.tail _ h)

/-- Placing a file keeps the order of the paths. -/
theorem increasing_place (path content : String) {files : List (String × String)}
    (increasing : files.Pairwise fun a b => a.1 < b.1) :
    (place path content files).Pairwise fun a b => a.1 < b.1 := by
  induction files with
  | nil => simp [place]
  | cons entry rest ih =>
    obtain ⟨p, c⟩ := entry
    obtain ⟨below, ordered⟩ := List.pairwise_cons.mp increasing
    simp only [place]
    split
    · rename_i before
      refine List.pairwise_cons.mpr ⟨fun file member => ?_, increasing⟩
      rcases List.mem_cons.mp member with rfl | h
      · exact before
      · exact String.lt_trans before (below file h)
    · split
      · rename_i after
        refine List.pairwise_cons.mpr ⟨fun file member => ?_, ih ordered⟩
        rcases mem_place member with h | h
        · exact h ▸ after
        · exact below file h
      · rename_i h₁ h₂
        obtain rfl := eq_of_not_lt h₁ h₂
        exact List.pairwise_cons.mpr ⟨below, ordered⟩

/-- The role with a file, over a file of the same path. -/
def insert (role : Role) (path content : String) : Role :=
  ⟨place path content role.files, increasing_place path content role.increasing⟩

/-- The role with a file, unless its path is taken. -/
def insertMissing (role : Role) (path content : String) : Role :=
  if role.contains path then role else role.insert path content

/-- The role of several files, the last one of a path counting. -/
def ofList (files : List (String × String)) : Role :=
  files.foldl (fun role (path, content) => role.insert path content) empty

/-- What a path holds after placing a file. -/
theorem get?_place (path content other : String) {files : List (String × String)}
    (increasing : files.Pairwise fun a b => a.1 < b.1) :
    Entries.get? (place path content files) other =
      if path = other then some content else Entries.get? files other := by
  induction files with
  | nil => simp [place, Entries.get?]
  | cons entry rest ih =>
    obtain ⟨p, c⟩ := entry
    obtain ⟨-, ordered⟩ := List.pairwise_cons.mp increasing
    simp only [place]
    split
    · simp only [Entries.get?]
    · split
      · rename_i _ after
        have distinct : ¬ path = p := fun e => String.lt_irrefl _ (e ▸ after)
        simp only [Entries.get?, ih ordered]
        by_cases h : p = other
        · have h' : ¬ path = other := fun e => distinct (e.trans h.symm)
          simp [h, h']
        · simp [h]
      · rename_i h₁ h₂
        obtain rfl := eq_of_not_lt h₁ h₂
        by_cases h : path = other <;> simp [Entries.get?, h]

/-- What a path holds after an insertion. -/
theorem get?_insert (role : Role) (path content other : String) :
    (role.insert path content).get? other =
      if path = other then some content else role.get? other :=
  get?_place path content other role.increasing

/-- What a path holds after an insertion that keeps what is there. -/
theorem get?_insertMissing (role : Role) (path content other : String) :
    (role.insertMissing path content).get? other =
      if role.get? path = none ∧ path = other then some content else role.get? other := by
  unfold insertMissing contains
  cases h : role.get? path with
  | none => simp [get?_insert]
  | some c => simp

end Role

end Rolewright
