/-
# Where logical lines stand

Logical lines follow one another: each lies inside the source, and ends before the next begins.
-/

import Rolewright.Recipe.Line

namespace Rolewright.Recipe

open Text

/-- A line stands on some of the physical lines from one number up to another one. -/
structure Line.Within (line : Line) (low high : Nat) : Prop where
  low_le : low ≤ line.first
  first_le : line.first ≤ line.last
  last_lt : line.last < high

theorem Line.Within.mono {line : Line} {low low' high : Nat} (within : line.Within low' high)
    (lower : low ≤ low') : line.Within low high :=
  ⟨Nat.le_trans lower within.low_le, within.first_le, within.last_lt⟩

/-- What one step of the reading leaves over ends where the source ends. -/
theorem next_add_length {number taken : Nat} {rows rest : List (List Char)}
    (fewer : rest.length ≤ rows.length) (next : taken = rows.length - rest.length) :
    number + 1 + taken + rest.length = number + (rows.length + 1) := by
  omega

theorem within_of_mem_statements (number : Nat) (rows : List (List Char)) :
    ∀ line ∈ statements number rows, line.Within number (number + rows.length) := by
  fun_induction statements number rows with
  | case1 => exact fun _ member => nomatch member
  | case2 number row rows _ fewer ih =>
      intro line member
      have within := ih line member
      rw [next_add_length fewer rfl] at within
      exact within.mono (by omega)
  | case3 number row rows _ fewer taken next text others empty ih =>
      intro line member
      have within := ih line member
      rw [next_add_length fewer rfl] at within
      exact within.mono (by omega)
  | case4 number row rows _ fewer taken next text others full ih =>
      have ends : next + taken.2.length = number + (rows.length + 1) := next_add_length fewer rfl
      have begins : number < next := by omega
      intro line member
      rcases List.mem_cons.mp member with rfl | later
      · constructor
        · exact Nat.le_refl _
        · exact Nat.le_sub_one_of_lt begins
        · simp only [List.length_cons]
          omega
      · have within := ih line later
        rw [ends] at within
        exact within.mono (Nat.le_of_lt begins)

/-- Each statement ends before the next one begins. -/
theorem pairwise_statements (number : Nat) (rows : List (List Char)) :
    (statements number rows).Pairwise (·.last < ·.first) := by
  fun_induction statements number rows with
  | case1 => exact .nil
  | case2 _ _ _ _ _ ih => exact ih
  | case3 _ _ _ _ _ _ _ _ _ _ ih => exact ih
  | case4 number row rows _ fewer taken next text others full ih =>
      refine .cons ?_ ih
      intro line member
      have after := (within_of_mem_statements next taken.2 line member).low_le
      change next - 1 < line.first
      omega

namespace Line

variable {source : List Char} {line : Line}

/-- A logical line stands on physical lines of its source. -/
theorem within_of_mem_ofSource (member : line ∈ ofSource source) :
    line.Within 1 ((lines source).length + 1) := by
  have within := within_of_mem_statements 1 (lines source) line member
  rwa [Nat.add_comm] at within

theorem pairwise_ofSource (source : List Char) : (ofSource source).Pairwise (·.last < ·.first) :=
  pairwise_statements 1 (lines source)

end Line

end Rolewright.Recipe
