/-
# What is put together from two parts

Two parts that were put together are told apart where something marks the end of the first: a kind
of character that goes on up to the cut and no further, or a character that the first part does not
have.
-/

import Mathlib.Data.List.TakeWhile

namespace Rolewright.Text

variable {α : Type*} {a : α} {p : α → Bool} {before before' after after' : List α}

/-! ## A kind of character -/

/-- Parts that meet where a kind of character ends are told apart in one way. -/
theorem append_inj_of_all (inner : ∀ c ∈ before, p c = true) (inner' : ∀ c ∈ before', p c = true)
    (outer : ∀ c ∈ after.head?, p c = false) (outer' : ∀ c ∈ after'.head?, p c = false)
    (same : before ++ after = before' ++ after') : before = before' ∧ after = after' := by
  have stops {after : List α} (outer : ∀ c ∈ after.head?, p c = false) :
      after.takeWhile p = [] := by
    cases after with
    | nil => rfl
    | cons c cs => exact List.takeWhile_cons_of_neg (ne_true_of_eq_false (outer c rfl))
  have first := congrArg (List.takeWhile p) same
  rw [List.takeWhile_append_of_pos inner, List.takeWhile_append_of_pos inner', stops outer,
    stops outer', List.append_nil, List.append_nil] at first
  exact ⟨first, List.append_cancel_left (first ▸ same)⟩

/-- So are parts that meet where a kind of character begins for the last time. -/
theorem append_inj_of_all_last (inner : ∀ c ∈ after, p c = true)
    (inner' : ∀ c ∈ after', p c = true) (outer : ∀ c ∈ before.getLast?, p c = false)
    (outer' : ∀ c ∈ before'.getLast?, p c = false) (same : before ++ after = before' ++ after') :
    before = before' ∧ after = after' := by
  have backwards := congrArg List.reverse same
  rw [List.reverse_append, List.reverse_append] at backwards
  obtain ⟨first, second⟩ := append_inj_of_all (p := p)
    (fun c member => inner c (List.mem_reverse.mp member))
    (fun c member => inner' c (List.mem_reverse.mp member))
    (fun c last => outer c (List.head?_reverse ▸ last))
    (fun c last => outer' c (List.head?_reverse ▸ last)) backwards
  exact ⟨List.reverse_inj.mp second, List.reverse_inj.mp first⟩

/-! ## A character that the first part does not have -/

/-- A part that does not have a character lies before the character wherever it is in front. -/
theorem exists_append_of_not_mem (same : before ++ after = before' ++ a :: after')
    (free : a ∉ before) :
    ∃ between, before' = before ++ between ∧ after = between ++ a :: after' := by
  rcases List.append_eq_append_iff.mp same with ⟨between, split, rest⟩ | ⟨between, split, rest⟩
  · exact ⟨between, split, rest⟩
  · cases between with
    | nil => exact ⟨[], by rw [split, List.append_nil, List.append_nil], rest.symm⟩
    | cons b bs =>
        obtain ⟨rfl, -⟩ := List.cons.inj rest
        exact absurd (split ▸ List.mem_append_right _ (.head _)) free

/-- Parts that meet at the first place of a character are told apart in one way. -/
theorem append_cons_inj_of_not_mem (free : a ∉ before) (free' : a ∉ before')
    (same : before ++ a :: after = before' ++ a :: after') : before = before' ∧ after = after' := by
  obtain ⟨between, longer, left⟩ := exists_append_of_not_mem same free
  cases between with
  | nil => exact ⟨by rw [longer, List.append_nil], (List.cons.inj left).2⟩
  | cons b bs =>
      obtain rfl : a = b := (List.cons.inj left).1
      exact absurd (longer ▸ List.mem_append_right _ (.head _)) free'

end Rolewright.Text
