/-
# What a squiggly heredoc takes off

Of a body without white space other than spaces each row loses as many spaces as the row that has
the fewest of them, blank rows not counted (`dedent_eq`). Sizes are counted in bytes by the program;
in such a body what is counted is spaces, and a space is one byte.
-/

import Rolewright.Proofs.Recipe.Silence

namespace Rolewright.Recipe

open Text

/-- How many spaces a row begins with. -/
def leadingSpaces (row : List Char) : Nat :=
  (row.takeWhile (· == ' ')).length

/-- The fewest spaces that a row begins with, blank rows not counted. -/
def margin (body : List (List Char)) : Nat :=
  (((body.filter fun row => !isBlankText row).map leadingSpaces).min?).getD 0

/-- A row whose only white space is spaces. -/
def BlanksAreSpaces (row : List Char) : Prop :=
  ∀ c ∈ row, isBlank c = true → c = ' '

instance (row : List Char) : Decidable (BlanksAreSpaces row) :=
  List.decidableBAll (fun c => isBlank c = true → c = ' ') row

/-! ## Bytes and spaces -/

section Spaces

variable {row : List Char} {n : Nat}

theorem foldl_utf8Size (cs : List Char) (n : Nat) :
    cs.foldl (fun n c => n + c.utf8Size) n = n + byteLength cs := by
  induction cs generalizing n with
  | nil => rfl
  | cons c cs ih => rw [byteLength, List.foldl_cons, List.foldl_cons, ih, ih, Nat.zero_add,
      Nat.add_assoc]

theorem byteLength_append (cs ds : List Char) :
    byteLength (cs ++ ds) = byteLength cs + byteLength ds := by
  rw [byteLength, List.foldl_append, foldl_utf8Size]
  rfl

theorem byteLength_spaces {cs : List Char} (spaces : ∀ c ∈ cs, c = ' ') :
    byteLength cs = cs.length := by
  induction cs with
  | nil => rfl
  | cons c cs ih =>
      obtain ⟨rfl, later⟩ := List.forall_mem_cons.mp spaces
      rw [byteLength, List.foldl_cons, foldl_utf8Size, ih later, List.length_cons, Nat.add_comm]
      rfl

/-- In a row of this kind the indentation is the spaces it begins with. -/
theorem BlanksAreSpaces.takeWhile_eq (spaced : BlanksAreSpaces row) :
    row.takeWhile isBlank = row.takeWhile (· == ' ') := by
  induction row with
  | nil => rfl
  | cons c cs ih =>
      obtain ⟨here, later⟩ := List.forall_mem_cons.mp spaced
      have same : isBlank c = (c == ' ') := by
        rw [Bool.eq_iff_iff, beq_iff_eq]
        exact ⟨here, fun space => space ▸ by decide⟩
      rw [List.takeWhile_cons, List.takeWhile_cons, same, ih later]

theorem BlanksAreSpaces.indentation_eq (spaced : BlanksAreSpaces row) :
    indentation row = leadingSpaces row := by
  have spaces : ∀ c ∈ row.takeWhile isBlank, c = ' ' := fun c member =>
    spaced c ((List.takeWhile_prefix _).subset member) (List.mem_takeWhile_imp member)
  have parts : byteLength row = (row.takeWhile isBlank).length + byteLength (trimStart row) := by
    rw [← byteLength_spaces spaces, ← byteLength_append, trimStart,
      List.takeWhile_append_dropWhile]
  rw [indentation, parts, Nat.add_sub_cancel, spaced.takeWhile_eq, leadingSpaces]

/-- Spaces are dropped one by one. -/
theorem dropBytes?_spaces (spaces : ∀ c ∈ row.take n, c = ' ') :
    dropBytes? n row = if n ≤ row.length then some (row.drop n) else none := by
  induction n generalizing row with
  | zero => rw [dropBytes?, if_pos (Nat.zero_le _), List.drop_zero]
  | succ n ih =>
      cases row with
      | nil => rfl
      | cons c cs =>
          obtain ⟨rfl, later⟩ := List.forall_mem_cons.mp spaces
          have here : ' '.utf8Size = 1 := rfl
          rw [dropBytes?, here, if_pos (Nat.le_add_left 1 n), Nat.add_sub_cancel, ih later,
            List.length_cons, List.drop_succ_cons]
          simp only [Nat.succ_le_succ_iff]

end Spaces

/-! ## Bodies -/

theorem least_eq (numbers : List Nat) : least numbers = numbers.min?.getD 0 := by
  cases numbers with
  | nil => rfl
  | cons n ns => rw [List.min?_cons', least, Option.getD_some]

section Bodies

variable {body : List (List Char)} {row : List Char}

theorem margin_le (member : row ∈ body) (loud : isBlankText row = false) :
    margin body ≤ leadingSpaces row := by
  have counted : leadingSpaces row ∈
      (body.filter fun row => !isBlankText row).map leadingSpaces :=
    List.mem_map_of_mem (List.mem_filter.mpr ⟨member, by rw [loud]; rfl⟩)
  unfold margin
  cases least : ((body.filter fun row => !isBlankText row).map leadingSpaces).min? with
  | none => exact Nat.zero_le _
  | some n => exact (List.min?_eq_some_iff.mp least).2 _ counted

/-- A row loses the margin, or all if it is shorter, for then it is blank. -/
theorem dropBytes?_margin (spaced : BlanksAreSpaces row) (member : row ∈ body) :
    (dropBytes? (margin body) row).getD (trimStart row) = row.drop (margin body) := by
  cases blank : isBlankText row with
  | true =>
      have spaces : ∀ c ∈ row, c = ' ' := fun c inside =>
        spaced c inside (List.all_eq_true.mp blank c inside)
      rw [dropBytes?_spaces fun c inside => spaces c (List.mem_of_mem_take inside)]
      split
      · rfl
      · rename_i short
        rw [List.drop_eq_nil_of_le (Nat.le_of_not_le short)]
        exact trimStart_eq_nil_iff.mpr blank
  | false =>
      have reach : margin body ≤ (row.takeWhile (· == ' ')).length := margin_le member blank
      have leading := List.takeWhile_prefix (p := (· == ' ')) (l := row)
      have spaces : ∀ c ∈ row.take (margin body), c = ' ' := by
        intro c inside
        obtain ⟨rest, split⟩ := leading
        rw [← split, List.take_append_of_le_length reach] at inside
        simpa using List.mem_takeWhile_imp (List.mem_of_mem_take inside)
      rw [dropBytes?_spaces spaces, if_pos (Nat.le_trans reach leading.length_le)]
      rfl

/-- The least indentation of its rows is taken off a body. -/
theorem dedent_eq (spaced : ∀ row ∈ body, BlanksAreSpaces row) :
    dedent body = unlines (body.map (List.drop (margin body))) := by
  have shared : least ((body.filter fun row => !isBlankText row).map indentation) =
      margin body := by
    rw [least_eq, margin]
    congr 2
    refine List.map_congr_left fun row member => ?_
    exact (spaced row (List.mem_filter.mp member |>.1)).indentation_eq
  rw [dedent, shared]
  refine congrArg unlines (List.map_congr_left fun row member => ?_)
  exact dropBytes?_margin (spaced row member) member

end Bodies

end Rolewright.Recipe
