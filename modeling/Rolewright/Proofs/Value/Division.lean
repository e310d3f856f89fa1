/-
# Dividing a text at its separators

A text is cut where a separator stands and neither a quote nor a bracket is open. Parts that leave
nothing open and have no such separator within them are found again when they are written with
separators between them, and whatever the text, balanced or not, its parts stand in it in their
order and have nothing between them but blanks and the separators at which it is cut
(`split_exact`).

The proof goes from cut to cut: a text is either one piece, or it has a first exposed separator,
before which stands one piece (`exists_first_cut`).
-/

import Rolewright.Proofs.Recipe.Silence
import Rolewright.Proofs.Value.Interpolation

namespace Rolewright

/-! ## What trimming takes away -/

namespace Text

variable {text : List Char}

/-- What is left after trimming neither begins nor ends with a blank. -/
theorem isSolid_trim (some : trim text ≠ []) : IsSolid (trim text) := by
  constructor
  · cases found : trimStart text with
    | nil => exact absurd (by rw [trim, found]; rfl) some
    | cons c cs =>
        have solid : isBlank c = false := isBlank_of_head?_trimStart (congrArg List.head? found)
        have first := head?_trim_cons solid cs
        rw [trim, trimStart_cons_of_not_blank solid, ← found, ← trim] at first
        rw [first]
        simp [solid]
  · have solid := List.head?_dropWhile_not isBlank (trimStart text).reverse
    rw [trim, trimEnd, List.getLast?_reverse]
    rw [trim, trimEnd] at some
    cases found : (trimStart text).reverse.dropWhile isBlank with
    | nil => exact absurd (congrArg List.reverse found) some
    | cons c cs =>
        rw [found] at solid
        simpa using solid

end Text

namespace Value

open Recipe Text

variable {sep : Char} {s : Nesting} {text part : List Char} {parts : List (List Char)}

/-! ## What a scan has seen -/

theorem Nesting.over_append (s : Nesting) (before after : List Char) :
    s.over (before ++ after) = (s.over before).over after :=
  List.foldl_append

/-- A backslash counts only inside a quote. -/
theorem Nesting.escaped_over (settled : s.quote = none → s.escaped = false) :
    (s.over text).quote = none → (s.over text).escaped = false := by
  induction text generalizing s with
  | nil => exact settled
  | cons c cs ih =>
      refine ih ?_
      obtain ⟨depth, quote, escaped⟩ := s
      cases quote <;> unfold step <;> dsimp only <;> split_ifs <;> simp_all

/-- Where nothing is open, the scan is as it was at the start. -/
theorem Nesting.over_start_of_atTop (top : (start.over text).atTop = true) :
    start.over text = start := by
  have settled : (start.over text).quote = none → (start.over text).escaped = false :=
    escaped_over fun _ => rfl
  generalize start.over text = s at *
  obtain ⟨depth, quote, escaped⟩ := s
  simp only [atTop, Bool.and_eq_true, Option.isNone_iff_eq_none, beq_iff_eq] at top
  obtain ⟨rfl, rfl⟩ := top
  exact congrArg _ (settled rfl)

theorem Nesting.not_exposes_nil : ¬ s.Exposes [sep] [] :=
  fun ⟨_, _, whole, _⟩ => by simp at whole

theorem Nesting.exposes_cons {c : Char} :
    s.Exposes [sep] (c :: text) ↔ s.atTop = true ∧ c = sep ∨ (s.step c).Exposes [sep] text := by
  constructor
  · rintro ⟨before, after, whole, top⟩
    cases before with
    | nil => exact .inl ⟨top, (List.cons.inj whole).1⟩
    | cons d ds =>
        obtain ⟨rfl, rest⟩ := List.cons.inj whole
        exact .inr ⟨ds, after, rest, top⟩
  · rintro (⟨top, rfl⟩ | ⟨before, after, rfl, top⟩)
    · exact ⟨[], text, rfl, top⟩
    · exact ⟨c :: before, after, rfl, top⟩

theorem Nesting.exposes_append {before after : List Char} :
    s.Exposes [sep] (before ++ after) ↔
      s.Exposes [sep] before ∨ (s.over before).Exposes [sep] after := by
  induction before generalizing s with
  | nil => exact (or_iff_right not_exposes_nil).symm
  | cons c cs ih => rw [List.cons_append, exposes_cons, exposes_cons, ih, or_assoc, over_cons]

instance Nesting.decidableExposes (sep : Char) :
    (s : Nesting) → (text : List Char) → Decidable (s.Exposes [sep] text)
  | _, [] => .isFalse not_exposes_nil
  | s, c :: cs =>
    have := decidableExposes sep (s.step c) cs
    decidable_of_iff _ exposes_cons.symm

/-- A text is in one piece, or there is a first place where it is cut. -/
theorem exists_first_cut (sep : Char) (s : Nesting) (text : List Char) :
    ¬ s.Exposes [sep] text ∨ ∃ piece rest, text = piece ++ sep :: rest ∧
      ¬ s.Exposes [sep] piece ∧ (s.over piece).atTop = true := by
  induction text generalizing s with
  | nil => exact .inl Nesting.not_exposes_nil
  | cons c cs ih =>
      by_cases here : s.atTop = true ∧ c = sep
      · obtain ⟨top, rfl⟩ := here
        exact .inr ⟨[], cs, rfl, Nesting.not_exposes_nil, top⟩
      · rcases ih (s.step c) with hidden | ⟨piece, rest, rfl, hidden, top⟩
        · exact .inl (Nesting.exposes_cons.not.mpr (not_or.mpr ⟨here, hidden⟩))
        · exact .inr ⟨c :: piece, rest, rfl,
            Nesting.exposes_cons.not.mpr (not_or.mpr ⟨here, hidden⟩), top⟩

/-! ## Parts that are found again -/

/-- A part that leaves nothing open and has no separator within it at which it would be cut. -/
def IsNeutral (sep : Char) (part : List Char) : Prop :=
  ¬ Nesting.start.Exposes [sep] part ∧ (Nesting.start.over part).atTop = true

instance : Decidable (IsNeutral sep part) :=
  inferInstanceAs (Decidable (_ ∧ _))

/-- What stands before a cut and what stands behind it are divided one after the other. -/
theorem split_append_cut (plain : Nesting.isStructural sep = false)
    (top : (Nesting.start.over part).atTop = true) (rest : List Char) :
    split sep (part ++ sep :: rest) = split sep part ++ split sep rest := by
  have cut : pieces sep .start (part ++ sep :: rest) = _ := pieces_append_cut plain top
  rw [Nesting.over_start_of_atTop top] at cut
  rw [split, cut, List.map_append, List.filter_append]
  rfl

/-- Parts are found again between their separators. -/
theorem split_intercalate_of_isNeutral (plain : Nesting.isStructural sep = false)
    (each : ∀ part ∈ parts, IsSolid part ∧ IsNeutral sep part) :
    split sep ([sep].intercalate parts) = parts := by
  induction parts with
  | nil => rfl
  | cons part parts ih =>
      obtain ⟨⟨solid, hidden, top⟩, later⟩ := List.forall_mem_cons.mp each
      have single : split sep part = [part] := split_of_uncut (uncut_of_not_exposes hidden) solid
      cases parts with
      | nil => rw [List.intercalate_singleton, single]
      | cons next parts =>
          rw [List.intercalate_cons_cons, List.append_assoc, List.singleton_append,
            split_append_cut plain top, single, ih later]
          rfl

/-! ## Parts of any text -/

/-- The parts of a text that is read from a state on, in their order. Outside of them there are only
blanks, and separators where nothing is open. -/
inductive IsDividedInto (sep : Char) : Nesting → List Char → List (List Char) → Prop
  | nil {s : Nesting} : IsDividedInto sep s [] []
  | outside {s : Nesting} {c : Char} {text : List Char} {parts : List (List Char)}
      (idle : isBlank c = true ∨ s.atTop = true ∧ c = sep)
      (later : IsDividedInto sep (s.step c) text parts) : IsDividedInto sep s (c :: text) parts
  | part {s : Nesting} {part text : List Char} {parts : List (List Char)} (solid : IsSolid part)
      (hidden : ¬ s.Exposes [sep] part) (later : IsDividedInto sep (s.over part) text parts) :
      IsDividedInto sep s (part ++ text) (part :: parts)

theorem IsDividedInto.blanks {blanks : List Char} (blank : isBlankText blanks = true)
    (later : IsDividedInto sep (s.over blanks) text parts) :
    IsDividedInto sep s (blanks ++ text) parts := by
  induction blanks generalizing s with
  | nil => exact later
  | cons c cs ih =>
      rw [isBlankText, List.all_cons, Bool.and_eq_true] at blank
      exact .outside (.inl blank.1) (ih blank.2 later)

/-- A piece is a part once it is trimmed, or nothing but blanks. -/
theorem IsDividedInto.piece {piece : List Char} (hidden : ¬ s.Exposes [sep] piece)
    (later : IsDividedInto sep (s.over piece) text parts) :
    IsDividedInto sep s (piece ++ text)
      ([trim piece].filter (fun part => !part.isEmpty) ++ parts) := by
  obtain ⟨leading, trailing, before, after, whole⟩ := exists_blanks_around piece
  have around : piece ++ text = leading ++ (trim piece ++ (trailing ++ text)) := by
    conv_lhs => rw [whole]
    rw [List.append_assoc, List.append_assoc]
  rw [whole, Nesting.exposes_append, Nesting.exposes_append, not_or, not_or] at hidden
  rw [whole, Nesting.over_append, Nesting.over_append] at later
  have rest := later.blanks after
  rw [around]
  refine .blanks before ?_
  by_cases nothing : trim piece = []
  · rw [nothing] at rest ⊢
    exact rest
  · rw [List.filter_cons_of_pos (by simpa using nothing)]
    exact .part (isSolid_trim nothing) hidden.2.1 rest

/-- A text that is not cut is one piece. -/
theorem pieces_of_not_exposes (hidden : ¬ s.Exposes [sep] text) : pieces sep s text = [text] := by
  have single := (uncut_of_not_exposes hidden).pieces_append []
  rw [List.append_nil] at single
  rw [single, pieces, prepend, List.append_nil]

/-- Every text is divided into its parts. -/
theorem isDividedInto_pieces (plain : Nesting.isStructural sep = false) (s : Nesting)
    (text : List Char) :
    IsDividedInto sep s text
      (((pieces sep s text).map trim).filter fun part => !part.isEmpty) := by
  rcases exists_first_cut sep s text with hidden | ⟨piece, rest, rfl, hidden, top⟩
  · have single := IsDividedInto.nil.piece hidden
    rw [List.append_nil, List.append_nil] at single
    rw [pieces_of_not_exposes hidden]
    exact single
  · rw [pieces_append_cut plain top, pieces_of_not_exposes hidden, List.map_append,
      List.filter_append]
    refine .piece hidden (.outside (.inr ⟨top, rfl⟩) ?_)
    rw [Nesting.step_of_atTop plain top]
    exact isDividedInto_pieces plain (s.over piece) rest
termination_by text.length

/-- Parts that are trimmed and neutral are found again between their separators, and every text,
balanced or not, is divided into its parts. -/
theorem split_exact {sep : Char} (known : sep ∈ [',', ';']) :
    (∀ parts, (∀ part ∈ parts, IsSolid part ∧ IsNeutral sep part) →
      split sep ([sep].intercalate parts) = parts) ∧
    ∀ text, IsDividedInto sep .start text (split sep text) := by
  have plain : Nesting.isStructural sep = false := by
    simp only [List.mem_cons, List.not_mem_nil, or_false] at known
    rcases known with rfl | rfl <;> rfl
  exact ⟨fun _ each => split_intercalate_of_isNeutral plain each,
    fun text => isDividedInto_pieces plain .start text⟩

/-- Three arguments are found again, and so are the parts of a text in which two brackets are closed
that were never opened and a quote stays open. -/
theorem split_exact_arguments :
    let arguments := ["a b".toList, "[b, c]".toList, "'d,\\'e'".toList]
    let stray := " ) ; (a;, ]b ;'c; ".toList
    split ',' ([','].intercalate arguments) = arguments ∧
      IsDividedInto ';' .start stray (split ';' stray) := by
  intro arguments stray
  have each : ∀ part ∈ arguments, IsSolid part ∧ IsNeutral ',' part := by
    simp only [arguments, List.forall_mem_cons]
    exact ⟨⟨⟨by decide, by decide⟩, by decide⟩, ⟨⟨by decide, by decide⟩, by decide⟩,
      ⟨⟨by decide, by decide⟩, by decide⟩, nofun⟩
  exact ⟨(split_exact (List.mem_cons_self ..)).1 arguments each,
    (split_exact (by decide)).2 stray⟩

end Value

end Rolewright
