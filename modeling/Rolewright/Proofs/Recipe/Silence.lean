/-
# Rows that no line stands on

The logical lines of a source stand on some of its physical lines. This module says what the others
are: rows that say nothing, because they are blank or hold a comment only, and documentation
(`partition_ofSource`).

A row says nothing exactly if a statement that is read from it on has no text. The scan passes over
blanks without a change of its state (`exists_readFrom_blanks`), so a comment sign after them is
seen as one, and any other character stays at the front of the statement however far that goes on.
-/

import Mathlib.Data.List.TakeWhile
import Rolewright.Proofs.Recipe.Lines
import Rolewright.Proofs.Recipe.Rows

namespace Rolewright

namespace Text

variable {cs : List Char}

theorem trimStart_eq_nil_iff : trimStart cs = [] ↔ isBlankText cs = true := by
  rw [trimStart, List.dropWhile_eq_nil_iff, isBlankText, List.all_eq_true]

theorem isBlank_of_head?_trimStart {c : Char} (first : (trimStart cs).head? = some c) :
    isBlank c = false := by
  have solid := List.head?_dropWhile_not isBlank cs
  rw [trimStart] at first
  rw [first] at solid
  exact solid

theorem trim_blanks (blank : isBlankText cs = true) : trim cs = [] := by
  rw [trim, trimStart_eq_nil_iff.mpr blank]
  rfl

/-- Trimming keeps a text that begins with something else than a blank. -/
theorem head?_trim_cons {c : Char} (solid : isBlank c = false) (cs : List Char) :
    (trim (c :: cs)).head? = some c := by
  rw [trim, trimStart_cons_of_not_blank solid, trimEnd, List.head?_reverse, List.reverse_cons,
    List.dropWhile_append]
  split
  · rw [List.dropWhile_cons_of_neg (by rw [solid]; exact Bool.false_ne_true)]
    rfl
  · rw [List.getLast?_append]
    rfl

end Text

namespace Recipe

open Text

/-- A row that says nothing: it is blank, or a comment stands on it and nothing else. -/
def IsSilent (row : List Char) : Prop :=
  isBlankText row = true ∨ (trimStart row).head? = some '#'

instance (row : List Char) : Decidable (IsSilent row) :=
  inferInstanceAs (Decidable (_ ∨ _))

/-! ## Blanks at the start of a row -/

theorem stepCode_of_isBlank {c : Char} (blank : isBlank c = true) (s : Scan) : s.stepCode c = s :=
  Scan.stepCode_of_kind blank (by decide) s

/-- Blanks outside quotes are kept and change nothing. -/
theorem exists_readFrom_blanks {blanks : List Char} (blank : isBlankText blanks = true)
    (before : Option Char) (rest : List Char) :
    ∃ last, Scan.start.readFrom false before (blanks ++ rest) =
      ((Scan.start.readFrom false last rest).1,
        blanks ++ (Scan.start.readFrom false last rest).2) := by
  induction blanks generalizing before with
  | nil => exact ⟨before, rfl⟩
  | cons c cs ih =>
      obtain ⟨here, later⟩ := (Bool.and_eq_true _ _).mp blank
      obtain ⟨last, read⟩ := ih later (some c)
      refine ⟨last, ?_⟩
      have comment : (c == '#') = false := beq_of_kind here (by decide)
      have literal : (c == '?') = false := beq_of_kind here (by decide)
      rw [List.cons_append, Scan.readFrom]
      dsimp only [Scan.start] at read ⊢
      simp only [comment, literal, stepCode_of_isBlank here, read, Bool.false_and,
        Bool.false_eq_true, if_false, List.cons_append]

/-- A row is some blanks and what is left of it. -/
theorem exists_blanks (row : List Char) :
    ∃ blanks, isBlankText blanks = true ∧ row = blanks ++ trimStart row :=
  ⟨row.takeWhile isBlank, List.all_takeWhile, List.takeWhile_append_dropWhile.symm⟩

/-- A row is what is left of it without the blanks at its end, and some blanks. -/
theorem exists_blanks_behind (row : List Char) :
    ∃ after, isBlankText after = true ∧ row = trimEnd row ++ after := by
  obtain ⟨after, blank, split⟩ := exists_blanks row.reverse
  refine ⟨after.reverse, by rwa [isBlankText, List.all_reverse], ?_⟩
  have parts := congrArg List.reverse split
  rwa [List.reverse_reverse, List.reverse_append] at parts

/-- A row is what is left of it, between blanks. -/
theorem exists_blanks_around (row : List Char) :
    ∃ before after, isBlankText before = true ∧ isBlankText after = true ∧
      row = before ++ (trim row ++ after) := by
  obtain ⟨before, blank, split⟩ := exists_blanks row
  obtain ⟨after, blank', split'⟩ := exists_blanks_behind (trimStart row)
  exact ⟨before, after, blank, blank', by rw [trim, ← split', ← split]⟩

theorem opened_blanks {blanks : List Char} (blank : isBlankText blanks = true) :
    Heredoc.opened blanks = [] :=
  Heredoc.openedAfter_of_not_mem
    (fun member => ne_of_kind (List.all_eq_true.mp blank _ member) (by decide) rfl) 0

/-- A row that says nothing adds nothing to a statement that is begun with it. -/
theorem IsSilent.add_empty {row : List Char} (silent : IsSilent row) :
    Draft.empty.add row = (.empty, []) := by
  obtain ⟨blanks, blank, split⟩ := exists_blanks row
  have read : Scan.start.read row = (.start, blanks) := by
    obtain ⟨last, read⟩ := exists_readFrom_blanks blank none (trimStart row)
    have nothing : Scan.start.readFrom false last (trimStart row) = (.start, []) := by
      rcases silent with none | comment
      · rw [trimStart_eq_nil_iff.mpr none]
        rfl
      · obtain ⟨cs, rest⟩ := List.head?_eq_some_iff.mp comment
        rw [rest, Scan.readFrom]
        rfl
    rw [nothing, List.append_nil, ← split] at read
    exact read
  simp only [Draft.add, Draft.empty, read]
  simp [Scan.start, trim_blanks blank, opened_blanks blank]

/-- Such a row is a statement without text, and no further row belongs to it. -/
theorem IsSilent.takeStatement_eq {row : List Char} (silent : IsSilent row)
    (rows : List (List Char)) : takeStatement .empty row rows = (.empty, rows) := by
  unfold takeStatement
  dsimp only
  rw [silent.add_empty]
  cases rows <;> rfl

theorem IsSilent.not_documentation {row : List Char} (silent : IsSilent row) :
    "=begin".toList.isPrefixOf row = false := by
  rw [Bool.eq_false_iff]
  intro begins
  obtain ⟨rest, rfl⟩ := List.isPrefixOf_iff_prefix.mp begins
  rcases silent with none | comment
  · cases none
  · cases comment

/-- A row that says nothing is passed over. -/
theorem IsSilent.statements_cons {row : List Char} (silent : IsSilent row)
    (rows : List (List Char)) (number : Nat) :
    statements number (row :: rows) = statements (number + 1) rows := by
  rw [statements, silent.not_documentation]
  simp only [silent.takeStatement_eq]
  simp [Draft.empty, trim, trimStart, trimEnd]

/-! ## Rows that say something -/

/-- A statement keeps the text of its first row at the front. -/
theorem prefix_takeStatement (d : Draft) (row : List Char) (rows : List (List Char)) :
    (d.add row).1.text <+: (takeStatement d row rows).1.text := by
  fun_induction takeStatement d row rows with
  | case1 d row rows added taken draft none => exact List.prefix_rfl
  | case2 d row rows added taken draft next rest found goes smaller ih =>
      have grown : draft.text <+: (draft.add next).1.text := by
        simp only [Draft.add, List.append_assoc]
        exact List.prefix_append _ _
      exact grown.trans ih
  | case3 d row rows added taken draft next rest found stops => exact List.prefix_rfl

/-- A row that says something begins a statement that has a text. -/
theorem isEmpty_trim_takeStatement {row : List Char} (loud : ¬ IsSilent row)
    (rows : List (List Char)) : (trim (takeStatement .empty row rows).1.text).isEmpty = false := by
  obtain ⟨blanks, blank, split⟩ := exists_blanks row
  cases rest : trimStart row with
  | nil => exact absurd (.inl (trimStart_eq_nil_iff.mp rest)) loud
  | cons c cs =>
      have first : (trimStart row).head? = some c := by rw [rest, List.head?_cons]
      have solid := isBlank_of_head?_trimStart first
      have other : (c == '#') = false :=
        beq_false_of_ne fun same => loud (.inr (same ▸ first))
      -- The character is code, whatever the scan makes of it.
      have kept (last : Option Char) :
          ∃ code, (Scan.start.readFrom false last (c :: cs)).2 = c :: code := by
        rw [Scan.readFrom]
        dsimp only [Scan.start]
        simp only [other, Bool.false_eq_true, if_false]
        split <;> exact ⟨_, rfl⟩
      obtain ⟨last, read⟩ := exists_readFrom_blanks blank none (trimStart row)
      rw [← split, rest] at read
      obtain ⟨code, kept⟩ := kept last
      have added : (Draft.empty.add row).1.text.head? = some c := by
        have text : (Draft.empty.add row).1.text = trim (blanks ++ c :: code) := by
          simp only [Draft.add, Draft.empty, Scan.read, read, kept]
          rfl
        have start : trimStart (blanks ++ c :: code) = trimStart (c :: code) := by
          rw [trimStart, List.dropWhile_append_of_pos (List.all_eq_true.mp blank)]
          rfl
        rw [text, trim, start, ← trim, head?_trim_cons solid]
      obtain ⟨more, whole⟩ := prefix_takeStatement .empty row rows
      obtain ⟨text, added⟩ := List.head?_eq_some_iff.mp added
      rw [← whole, added, List.cons_append]
      have trimmed := head?_trim_cons solid (text ++ more)
      cases empty : trim (c :: (text ++ more)) with
      | nil =>
          rw [empty] at trimmed
          cases trimmed
      | cons _ _ => rfl

/-! ## What is left of the rows -/

theorem suffix_takeBody (tag : List Char) (rows : List (List Char)) :
    (takeBody tag rows).2 <:+ rows := by
  induction rows with
  | nil => exact List.suffix_rfl
  | cons row rows ih =>
      rw [takeBody]
      split
      · exact List.suffix_cons row rows
      · exact ih.trans (List.suffix_cons row rows)

theorem suffix_takeBodies (heredocs : List Heredoc) (rows : List (List Char)) :
    (takeBodies heredocs rows).2 <:+ rows := by
  induction heredocs generalizing rows with
  | nil => exact List.suffix_rfl
  | cons heredoc others ih => exact (ih _).trans (suffix_takeBody heredoc.tag rows)

/-- A statement takes the first of the rows that follow it, and leaves the others. -/
theorem suffix_takeStatement (d : Draft) (row : List Char) (rows : List (List Char)) :
    (takeStatement d row rows).2 <:+ rows := by
  fun_induction takeStatement d row rows with
  | case1 d row rows added taken draft none => exact List.nil_suffix
  | case2 d row rows added taken draft next rest found goes smaller ih =>
      have left : next :: rest <:+ rows := found ▸ suffix_takeBodies added.2 rows
      exact ih.trans ((List.suffix_cons next rest).trans left)
  | case3 d row rows added taken draft next rest found stops =>
      exact found ▸ suffix_takeBodies added.2 rows

/-- Documentation takes the first of the rows that follow it. Only the last of them can end it. -/
theorem exists_documentation (rows : List (List Char)) :
    ∃ inside, inside ++ afterDocumentation rows = rows ∧
      ∀ i row, inside[i]? = some row → i + 1 < inside.length →
        "=end".toList.isPrefixOf row = false := by
  induction rows with
  | nil => exact ⟨[], rfl, nofun⟩
  | cons row rows ih =>
      rw [afterDocumentation]
      split
      · refine ⟨[row], rfl, fun i _ _ inner => ?_⟩
        rw [List.length_singleton] at inner
        omega
      · rename_i goes
        obtain ⟨inside, split, others⟩ := ih
        refine ⟨row :: inside, congrArg (row :: ·) split, fun i other here inner => ?_⟩
        cases i with
        | zero =>
            obtain rfl : row = other := Option.some.inj here
            exact Bool.eq_false_iff.mpr goes
        | succ i => exact others i other here (Nat.lt_of_succ_lt_succ inner)

/-! ## No row is lost -/

/-- A physical line on which none of some logical lines stands. -/
def IsUncovered (lines : List Line) (number : Nat) : Prop :=
  ∀ line ∈ lines, ¬ (line.first ≤ number ∧ number ≤ line.last)

/-- A row in documentation, which reaches from a row that starts with `=begin` and on which no line
stands to the next one that starts with `=end`. The rows are counted from zero, and the first of
them has this number. -/
def IsDocumented (number : Nat) (rows : List (List Char)) (lines : List Line) (i : Nat) : Prop :=
  ∃ start row, start ≤ i ∧ rows[start]? = some row ∧ "=begin".toList <+: row ∧
    IsUncovered lines (number + start) ∧
    ∀ k row, start ≤ k → k < i → rows[k]? = some row → ¬ "=end".toList <+: row

/-- Every row on which no line stands says nothing or is documentation. -/
def Accounts (number : Nat) (rows : List (List Char)) (lines : List Line) : Prop :=
  ∀ i row, rows[i]? = some row → IsUncovered lines (number + i) →
    IsSilent row ∨ IsDocumented number rows lines i

section Accounts

variable {number : Nat} {before rest rows : List (List Char)} {lines lines' : List Line}

theorem IsDocumented.append {i : Nat}
    (documented : IsDocumented (number + before.length) rest lines i)
    (same : ∀ n, number + before.length ≤ n → IsUncovered lines n → IsUncovered lines' n) :
    IsDocumented number (before ++ rest) lines' (before.length + i) := by
  obtain ⟨start, row, le, here, begins, uncovered, inside⟩ := documented
  have place (k : Nat) : (before ++ rest)[before.length + k]? = rest[k]? := by
    rw [List.getElem?_append_right (Nat.le_add_right _ _), Nat.add_sub_cancel_left]
  refine ⟨before.length + start, row, Nat.add_le_add_left le _, (place start).trans here, begins,
    ?_, fun k row first last there => ?_⟩
  · rw [← Nat.add_assoc]
    exact same _ (Nat.le_add_right _ _) uncovered
  · obtain ⟨k, rfl⟩ := Nat.exists_eq_add_of_le (Nat.le_trans (Nat.le_add_right _ _) first)
    rw [place] at there
    exact inside k row (by omega) (by omega) there

/-- Rows that are accounted for may follow rows that are. -/
theorem Accounts.append (later : Accounts (number + before.length) rest lines)
    (same : ∀ n, number + before.length ≤ n → (IsUncovered lines' n ↔ IsUncovered lines n))
    (here : ∀ i row, before[i]? = some row → IsUncovered lines' (number + i) →
      IsSilent row ∨ IsDocumented number (before ++ rest) lines' i) :
    Accounts number (before ++ rest) lines' := by
  intro i row there uncovered
  rcases Nat.lt_or_ge i before.length with first | last
  · rw [List.getElem?_append_left first] at there
    exact here i row there uncovered
  · obtain ⟨i, rfl⟩ := Nat.exists_eq_add_of_le last
    rw [List.getElem?_append_right last, Nat.add_sub_cancel_left] at there
    rw [← Nat.add_assoc, same _ (Nat.le_add_right _ _)] at uncovered
    exact (later i row there uncovered).imp_right fun documented =>
      documented.append fun n reach => (same n reach).mpr

theorem isUncovered_cons_iff {line : Line} {n : Nat} (past : line.last < n) :
    IsUncovered (line :: lines) n ↔ IsUncovered lines n := by
  rw [IsUncovered, List.forall_mem_cons]
  exact and_iff_right fun covers => Nat.not_le_of_lt past covers.2

/-- Before the first of some statements no line stands. -/
theorem isUncovered_statements {n : Nat} (before : n < number) :
    IsUncovered (statements number rows) n := fun line member covers =>
  Nat.not_le_of_lt before
    (Nat.le_trans (within_of_mem_statements number rows line member).low_le covers.1)

/-- What one step of the reading leaves over is numbered on from what it takes. -/
theorem next_number {inside : List (List Char)} (split : inside ++ rest = rows) (row : List Char) :
    number + 1 + (rows.length - rest.length) = number + (row :: inside).length := by
  rw [← split, List.length_append, Nat.add_sub_cancel, List.length_cons]
  omega

theorem accounts_statements (number : Nat) (rows : List (List Char)) :
    Accounts number rows (statements number rows) := by
  fun_induction statements number rows with
  | case1 number =>
      intro i row there
      rw [List.getElem?_nil] at there
      cases there
  | case2 number row rows documentation fewer ih =>
      obtain ⟨inside, split, others⟩ := exists_documentation rows
      rw [next_number split row] at ih ⊢
      conv => arg 2; rw [← split, ← List.cons_append]
      refine ih.append (fun _ _ => Iff.rfl) fun i other there _ => .inr ?_
      refine ⟨0, row, Nat.zero_le _, rfl, List.isPrefixOf_iff_prefix.mp documentation,
        isUncovered_statements (by simp), fun k other' _ inner there' => ?_⟩
      rw [← List.isPrefixOf_iff_prefix, Bool.not_eq_true]
      have bound := (List.getElem?_eq_some_iff.mp there).1
      rw [List.length_cons] at bound
      cases k with
      | zero =>
          obtain rfl : row = other' := Option.some.inj there'
          obtain ⟨rest, rfl⟩ := List.isPrefixOf_iff_prefix.mp documentation
          rfl
      | succ k =>
          rw [List.cons_append, List.getElem?_cons_succ,
            List.getElem?_append_left (by omega)] at there'
          exact others k other' there' (by omega)
  | case3 number row rows code fewer taken next text others empty ih =>
      have silent : IsSilent row := by
        by_contra loud
        have full := isEmpty_trim_takeStatement loud rows
        simp [text, taken, full] at empty
      have all : [] ++ taken.2 = rows := congrArg Prod.snd (silent.takeStatement_eq rows)
      have ih : Accounts (number + [row].length) taken.2 others := next_number all row ▸ ih
      rw [← all, List.nil_append]
      refine ih.append (fun _ _ => Iff.rfl) fun i other there _ => .inl ?_
      obtain rfl : row = other := by
        obtain ⟨bound, same⟩ := List.getElem?_eq_some_iff.mp there
        simpa using same
      exact silent
  | case4 number row rows code fewer taken next text others full ih =>
      obtain ⟨inside, split⟩ := suffix_takeStatement .empty row rows
      have reach : next = number + (row :: inside).length := next_number split row
      have ih : Accounts (number + (row :: inside).length) taken.2 others := reach ▸ ih
      conv => arg 2; rw [← split, ← List.cons_append]
      refine ih.append (fun n above => isUncovered_cons_iff ?_) fun i other there uncovered => ?_
      · show next - 1 < n
        omega
      · have bound := (List.getElem?_eq_some_iff.mp there).1
        refine absurd ?_ (uncovered _ (.head _))
        show number ≤ number + i ∧ number + i ≤ next - 1
        omega

end Accounts

/-- The logical lines of a source part its physical lines: each stands on some of them and ends
before the next begins, and where none stands there is nothing but blanks, comments and
documentation. -/
theorem partition_ofSource (source : List Char) :
    (∀ line ∈ Line.ofSource source,
        1 ≤ line.first ∧ line.first ≤ line.last ∧ line.last ≤ (lines source).length) ∧
      (Line.ofSource source).Pairwise (·.last < ·.first) ∧
      Accounts 1 (lines source) (Line.ofSource source) := by
  refine ⟨fun line member => ?_, Line.pairwise_ofSource source, accounts_statements 1 _⟩
  have within := Line.within_of_mem_ofSource member
  exact ⟨within.low_le, within.first_le, Nat.le_of_lt_succ within.last_lt⟩

end Recipe

end Rolewright
