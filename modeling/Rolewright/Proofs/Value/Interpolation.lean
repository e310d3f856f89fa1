/-
# Strings with interpolations

To the scan of a line a string in double quotes goes on behind a quote that stands in one of its
interpolations. The scan of an expression knows no interpolations, so the string ends for it at that
quote, and what follows is open to separators. Such a string is kept as it is written exactly if no
comma is exposed there, and if it is not taken for a pair (`parse_interpolated_iff`).

What is exposed has an interpolation before it, because up to the first interpolation both scans
agree (`quote_over_of_plain`). That is why an exposed arrow makes no pair: what stands before it is
no key.
-/

import Mathlib.Data.List.TakeWhile
import Rolewright.Proofs.Value.Escapes
import Rolewright.Recipe.Scan

namespace Rolewright

/-! ## One step inside a quote -/

namespace Recipe.Scan

/-- What a scan makes of a character inside the quote `q`, and whether it keeps the next one without
a look at it. -/
def stepInside (s : Scan) (q : Char) (literal : Bool) (c : Char) (next : Option Char) :
    Scan × Bool :=
  if literal then (s, false)
  else if c == '\\' then (s, true)
  else if c == '#' && q == '"' && next == some '\x7b' then
    ({ s with interpolations := s.interpolations + 1 }, true)
  else (s.stepQuoted q c, false)

variable {s : Scan} {q : Char}

theorem readFrom_inside (quote : s.quote = some q) (literal : Bool) (before : Option Char)
    (c : Char) (cs : List Char) :
    (s.readFrom literal before (c :: cs)).1 =
      ((s.stepInside q literal c cs.head?).1.readFrom (s.stepInside q literal c cs.head?).2
        (some c) cs).1 := by
  rw [readFrom, stepInside]
  cases literal with
  | true => rfl
  | false =>
      simp only [quote, Bool.false_eq_true, if_false]
      split_ifs <;> rfl

/-- Interpolations are only counted where one begins. -/
theorem interpolations_readFrom_le {text : List Char} (plain : ¬ ['#', '\x7b'] <:+: text)
    (literal : Bool) (before : Option Char) :
    (s.readFrom literal before text).1.interpolations ≤ s.interpolations := by
  induction text generalizing s literal before with
  | nil => exact Nat.le_refl _
  | cons c cs ih =>
      have later : ¬ ['#', '\x7b'] <:+: cs := fun inside =>
        plain (inside.trans (List.suffix_cons c cs).isInfix)
      have lone (hash : c = '#') : cs.head? ≠ some '\x7b' := by
        rintro brace
        obtain ⟨rest, rfl⟩ := List.head?_eq_some_iff.mp brace
        exact plain ⟨[], rest, by simp [hash]⟩
      cases quote : s.quote with
      | some q =>
          rw [readFrom_inside quote]
          refine Nat.le_trans (ih later _ _) ?_
          unfold stepInside
          split_ifs with _ _ opens
          · exact Nat.le_refl _
          · exact Nat.le_refl _
          · simp only [Bool.and_eq_true, beq_iff_eq] at opens
            exact absurd opens.2 (lone opens.1.1)
          · unfold stepQuoted
            split_ifs <;> simp
      | none =>
          have outside (c : Char) : (s.stepCode c).interpolations = s.interpolations := by
            unfold stepCode
            split_ifs <;> rfl
          rw [readFrom]
          simp only [quote]
          split_ifs
          · exact ih later _ _
          · exact Nat.le_refl _
          · exact ih later _ _
          · exact Nat.le_trans (ih later _ _) (Nat.le_of_eq (outside c))

/-- Inside a quote as long as a text is read, up to its last character. -/
def StaysInside (s : Scan) (q : Char) (literal : Bool) (before : Option Char) (text : List Char) :
    Prop :=
  ∀ n < text.length, (s.readFrom literal before (text.take n)).1.quote = some q

theorem StaysInside.quote {literal : Bool} {before : Option Char} {c : Char} {cs : List Char}
    (stays : s.StaysInside q literal before (c :: cs)) : s.quote = some q :=
  stays 0 (Nat.succ_pos _)

/-- What opens an interpolation ends no quote. -/
theorem quote_stepInside (quote : s.quote = some q) (literal : Bool) (c : Char)
    (next : Option Char) (stays : (s.stepInside q literal c none).1.quote = some q) :
    (s.stepInside q literal c next).1.quote = some q := by
  unfold stepInside at *
  split_ifs at * <;> simp_all

/-- What stays inside a quote goes on to stay inside behind its first character. Only the last
character that is read does not see what follows it. -/
theorem StaysInside.tail {literal : Bool} {before : Option Char} {c : Char} {cs : List Char}
    (stays : s.StaysInside q literal before (c :: cs)) :
    (s.stepInside q literal c cs.head?).1.StaysInside q (s.stepInside q literal c cs.head?).2
      (some c) cs := by
  intro n shorter
  have read := stays (n + 1) (Nat.succ_lt_succ shorter)
  rw [List.take_succ_cons, readFrom_inside stays.quote] at read
  cases n with
  | zero => exact quote_stepInside stays.quote literal c _ read
  | succ n => rwa [List.head?_take, if_neg (Nat.succ_ne_zero n)] at read

/-- Only the quote itself ends what is quoted. -/
theorem getLast?_of_staysInside {literal : Bool} {before : Option Char} {text : List Char}
    (stays : s.StaysInside q literal before text) (inside : s.quote = some q)
    (closes : (s.readFrom literal before text).1.quote = none) : text.getLast? = some q := by
  induction text generalizing s literal before with
  | nil => rw [readFrom, inside] at closes; cases closes
  | cons c cs ih =>
      rw [readFrom_inside inside] at closes
      cases cs with
      | nil =>
          rw [readFrom] at closes
          unfold stepInside stepQuoted at closes
          split_ifs at closes <;> simp_all
      | cons d ds =>
          rw [List.getLast?_cons_cons]
          exact ih stays.tail (stays.tail 0 (Nat.succ_pos _)) closes

end Recipe.Scan

namespace Value

open Recipe Text

variable {code mark text : List Char} {sep : Char}

/-! ## What is exposed -/

/-- What a scan of an expression has seen when a text has been read. -/
def Nesting.over (s : Nesting) (text : List Char) : Nesting :=
  text.foldl step s

@[simp]
theorem Nesting.over_nil (s : Nesting) : s.over [] = s := rfl

@[simp]
theorem Nesting.over_cons (s : Nesting) (c : Char) (cs : List Char) :
    s.over (c :: cs) = (s.step c).over cs := rfl

/-- Inside a quote and outside interpolations, both scans make the same of a character that neither
ends the quote nor opens an interpolation. -/
theorem Nesting.step_of_stepInside (depth : Int) {s : Scan} {literal : Bool} {c : Char}
    {next : Option Char} (flat : s.interpolations = 0) (lone : c = '#' → next ≠ some '\x7b')
    (stays : (s.stepInside '"' literal c next).1.quote = some '"') :
    ∃ escaped, s.stepInside '"' literal c next = (s, escaped) ∧
      step ⟨depth, some '"', literal⟩ c = ⟨depth, some '"', escaped⟩ := by
  cases literal with
  | true => exact ⟨false, rfl, rfl⟩
  | false =>
      unfold Scan.stepInside Scan.stepQuoted at *
      by_cases backslash : c = '\\'
      · subst backslash
        exact ⟨true, rfl, rfl⟩
      · by_cases quote : c = '"'
        · subst quote
          simp [flat] at stays
        · exact ⟨false, by simpa [backslash, quote, flat] using lone,
            by simp [step, backslash, quote]⟩

/-- Up to the first interpolation the scan of an expression sees the same quote. -/
theorem Nesting.quote_over_of_plain {s : Scan} {depth : Int} {literal : Bool}
    {before : Option Char} (plain : ¬ ['#', '\x7b'] <:+: text) (inside : s.quote = some '"')
    (flat : s.interpolations = 0) (stays : s.StaysInside '"' literal before text)
    (still : (s.readFrom literal before text).1.quote = some '"') :
    (Nesting.over ⟨depth, some '"', literal⟩ text).quote = some '"' := by
  induction text generalizing literal before with
  | nil => rfl
  | cons c cs ih =>
      have later : ¬ ['#', '\x7b'] <:+: cs := fun inside =>
        plain (inside.trans (List.suffix_cons c cs).isInfix)
      have lone (hash : c = '#') : cs.head? ≠ some '\x7b' := by
        intro brace
        obtain ⟨rest, rfl⟩ := List.head?_eq_some_iff.mp brace
        exact plain ⟨[], rest, by simp [hash]⟩
      rw [Scan.readFrom_inside inside] at still
      have tail := stays.tail
      have stays : (s.stepInside '"' literal c cs.head?).1.quote = some '"' := by
        cases cs with
        | nil => exact still
        | cons d ds => exact tail.quote
      obtain ⟨escaped, same, step⟩ := step_of_stepInside depth flat lone stays
      rw [same] at tail still
      rw [over_cons, step]
      exact ih later tail still

/-- The mark stands where neither a quote nor a bracket is open. -/
def Nesting.Exposes (s : Nesting) (mark text : List Char) : Prop :=
  ∃ before after, text = before ++ (mark ++ after) ∧ (s.over before).atTop = true

/-! ## Cuts -/

theorem uncut_of_not_exposes {s : Nesting} (hidden : ¬ s.Exposes [sep] text) :
    Uncut sep s text (s.over text) := by
  induction text generalizing s with
  | nil => exact .nil
  | cons c cs ih =>
      refine .cons ?_ (ih ?_)
      · rintro top - rfl
        exact hidden ⟨[], cs, rfl, top⟩
      · rintro ⟨before, after, rfl, top⟩
        exact hidden ⟨c :: before, after, rfl, top⟩

/-- What separates changes nothing that is open. -/
theorem Nesting.step_of_atTop {s : Nesting} {c : Char} (plain : isStructural c = false)
    (top : s.atTop = true) : s.step c = s := by
  have quote : s.quote = none := by
    rw [atTop, Bool.and_eq_true, Option.isNone_iff_eq_none] at top
    exact top.1
  simp only [isStructural, Bool.or_eq_false_iff] at plain
  simp [step, quote, plain]

theorem prepend_append_pieces (code more : List Char) (s : Nesting) (parts : List (List Char)) :
    prepend code (pieces sep s more ++ parts) = prepend code (pieces sep s more) ++ parts := by
  cases found : pieces sep s more with
  | nil => exact absurd found (pieces_ne_nil _ _ _)
  | cons piece rest => rfl

/-- A separator that is exposed cuts a text in two. -/
theorem pieces_append_cut {s : Nesting} {before after : List Char}
    (plain : Nesting.isStructural sep = false) (top : (s.over before).atTop = true) :
    pieces sep s (before ++ sep :: after) =
      pieces sep s before ++ pieces sep (s.over before) after := by
  induction before generalizing s with
  | nil =>
      have top : s.atTop = true := top
      rw [List.nil_append, pieces]
      simp [top, plain, pieces]
  | cons c cs ih =>
      rw [Nesting.over_cons] at top ⊢
      rw [List.cons_append]
      by_cases cut : s.atTop = true ∧ c = sep
      · obtain ⟨here, rfl⟩ := cut
        rw [Nesting.step_of_atTop plain here] at top ⊢
        rw [pieces, pieces, ih top]
        simp [here, plain]
      · have inside : (s.atTop && c == sep) = false := by simpa using cut
        rw [pieces_cons inside, pieces_cons inside, ih top, prepend_append_pieces]

/-- A character that separates nothing stands in some piece. -/
theorem exists_mem_pieces {s : Nesting} {c : Char} (other : c ≠ sep) (member : c ∈ text) :
    ∃ piece ∈ pieces sep s text, c ∈ piece := by
  induction text generalizing s with
  | nil => cases member
  | cons d ds ih =>
      unfold pieces
      split_ifs with cut
      · have later : c ∈ ds := by
          refine (List.mem_cons.mp member).resolve_left ?_
          simp only [Bool.and_eq_true, beq_iff_eq] at cut
          rintro rfl
          exact other cut.1.2
        obtain ⟨piece, among, inside⟩ := ih later
        exact ⟨piece, .tail _ among, inside⟩
      · obtain ⟨first, rest, found, -⟩ := exists_pieces_eq_cons sep (s.step d) ds
        rw [found]
        rcases List.mem_cons.mp member with rfl | later
        · exact ⟨_, .head _, .head _⟩
        · obtain ⟨piece, among, inside⟩ := ih (s := s.step d) later
          rw [found] at among
          rcases List.mem_cons.mp among with rfl | among
          · exact ⟨_, .head _, .tail _ inside⟩
          · exact ⟨piece, .tail _ among, inside⟩

/-! ## Fixed texts -/

theorem containsText_of_infix (inside : mark <:+: text) : containsText mark text = true := by
  induction text with
  | nil =>
      cases List.infix_nil.mp inside
      rfl
  | cons c cs ih =>
      rw [containsText, splitAtFirst?]
      cases here : afterPrefix? mark (c :: cs) with
      | some rest => rfl
      | none =>
          rcases List.infix_cons_iff.mp inside with ⟨rest, starts⟩ | later
          · rw [← starts, afterPrefix?_append] at here
            cases here
          · rw [Option.isSome_map]
            exact ih later

theorem infix_dropWhile {p : Char → Bool} (first : mark.head?.any (fun c => !p c) = true)
    (inside : mark <:+: text) : mark <:+: text.dropWhile p := by
  induction text with
  | nil => exact inside
  | cons d ds ih =>
      rw [List.dropWhile_cons]
      split
      · rename_i dropped
        rcases List.infix_cons_iff.mp inside with ⟨rest, starts⟩ | later
        · cases mark with
          | nil => cases first
          | cons c cs =>
              obtain ⟨rfl, -⟩ := List.cons.inj starts
              simp [dropped] at first
        · exact ih later
      · exact inside

/-- What neither begins nor ends with a blank is not lost in trimming. -/
theorem infix_trim_of_solid (solid : IsSolid mark) (inside : mark <:+: text) :
    mark <:+: trim text := by
  have last : mark.reverse.head?.any (fun c => !isBlank c) = true := by
    rw [List.head?_reverse]
    exact solid.last
  have start : mark <:+: trimStart text := infix_dropWhile solid.first inside
  rw [trim, trimEnd, ← List.reverse_infix, List.reverse_reverse]
  exact infix_dropWhile last (List.reverse_infix.mpr start)

/-- What opens with a double quote and holds an interpolation is no literal. -/
theorem single_of_interpolation {cs : List Char} (inside : ['#', '\x7b'] <:+: '"' :: cs) :
    single ('"' :: cs) = .raw (String.ofList ('"' :: cs)) := by
  have group : enclosed? '(' ')' ('"' :: cs) = none := rfl
  have leaf : leaf? ('"' :: cs) = none := by
    have string : stringLiteral? ('"' :: cs) = none := by
      simp [stringLiteral?, quotedLiteral?, containsText_of_infix inside]
    rw [leaf?, string]
    rfl
  have compound (shorter : List Char → Value) : compoundWith? shorter ('"' :: cs) = none := rfl
  have path (shorter : List Char → Value) : nodeReferenceWith? shorter ('"' :: cs) = none := rfl
  have name : isName ('"' :: cs) = false := rfl
  rw [single, singleWithin, singleWith, group, leaf, compound]
  dsimp only [Option.none_or]
  rw [path, name]
  rfl

/-! ## Marks at the top -/

theorem exists_of_splitAtMark? {s : Nesting} {before after : List Char}
    (found : splitAtMark? mark s text = some (before, after)) :
    text = before ++ (mark ++ after) ∧ (s.over before).atTop = true := by
  induction text generalizing s before with
  | nil => cases found
  | cons c cs ih =>
      rw [splitAtMark?] at found
      split at found
      · rename_i rest here
        cases found
        split at here
        · rename_i counts
          simp only [Bool.and_eq_true] at counts
          exact ⟨(List.isPrefixOf?_eq_some_iff_append_eq.mp here).symm, counts.1⟩
        · cases here
      · obtain ⟨⟨front, back⟩, inner, same⟩ := Option.map_eq_some_iff.mp found
        cases same
        obtain ⟨rfl, top⟩ := ih inner
        exact ⟨rfl, top⟩

/-- A mark that is exposed is found. -/
theorem isSome_splitAtMark?_iff {s : Nesting} {c : Char}
    (plain : Nesting.isStructural c = false) :
    (splitAtMark? (c :: mark) s text).isSome = true ↔ s.Exposes (c :: mark) text := by
  constructor
  · intro found
    obtain ⟨⟨before, after⟩, found⟩ := Option.isSome_iff_exists.mp found
    exact ⟨before, after, exists_of_splitAtMark? found⟩
  · rintro ⟨before, after, rfl, top⟩
    induction before generalizing s with
    | nil =>
        have here : s.atTop = true := top
        have found := afterPrefix?_append (c :: mark) after
        rw [List.cons_append] at found
        rw [List.nil_append, List.cons_append, splitAtMark?, here, plain, found]
        rfl
    | cons d ds ih =>
        rw [List.cons_append, splitAtMark?]
        split
        · rfl
        · rw [Option.isSome_map]
          exact ih top

theorem split_of_uncut {t : Nesting} (uncut : Uncut sep .start code t) (solid : IsSolid code) :
    split sep code = [code] := by
  have pieces_eq := uncut.pieces_append []
  rw [List.append_nil] at pieces_eq
  rw [split, pieces_eq]
  simp [prepend, pieces, solid.trim_eq, solid.isEmpty_eq]

/-! ## The literal -/

/-- A literal in double quotes, as the scan of a line sees it: its first character opens the quote,
only its last one closes it, and somewhere within an interpolation is open. -/
structure IsInterpolated (code : List Char) : Prop where
  opens : ∀ n < code.length, 0 < n → (Scan.start.read (code.take n)).1.quote = some '"'
  closes : (Scan.start.read code).1.quote = none
  interpolates : ∃ n ≤ code.length, 0 < (Scan.start.read (code.take n)).1.interpolations

/-- The code goes on like a pair behind a text in double quotes, which is taken for the key: with a
colon, a blank, and the rest of one line. -/
def OpensLikePair (code : List Char) : Prop :=
  ∃ key rest, code = '"' :: (key ++ '"' :: ':' :: rest) ∧ '"' ∉ key ∧
    rest.head?.any isBlank = true ∧ '\n' ∉ trimStart rest

theorem length_trimStart_beq (text : List Char) :
    ((trimStart text).length == text.length) = !text.head?.any isBlank := by
  cases text with
  | nil => rfl
  | cons c cs =>
      cases blank : isBlank c with
      | false => simp [trimStart, blank]
      | true =>
          have same : trimStart (c :: cs) = trimStart cs := by simp [trimStart, blank]
          have short := length_trimStart_le cs
          rw [same]
          simp only [List.length_cons, List.head?_cons, Option.any_some, blank, Bool.not_true,
            beq_eq_false_iff_ne]
          omega

theorem colonKey?_eq_some_iff {cs key rest : List Char} :
    colonKey? ('"' :: cs) = some (key, rest) ↔ cs = key ++ '"' :: ':' :: rest ∧ '"' ∉ key := by
  constructor
  · intro found
    have split := List.takeWhile_append_dropWhile (p := (· != '"')) (l := cs)
    have plain : '"' ∉ cs.takeWhile (· != '"') := fun inside => by
      simpa using List.mem_takeWhile_imp inside
    rw [colonKey?] at found
    split at found
    · rename_i quote behind ends
      have closing : quote = '"' := by
        have stops := List.head?_dropWhile_not (· != '"') cs
        rw [ends] at stops
        simpa using stops
      cases found
      rw [ends, closing] at split
      exact ⟨split.symm, plain⟩
    · cases found
  · rintro ⟨rfl, plain⟩
    have inside : ∀ c ∈ key, (c != '"') = true := fun c member =>
      bne_iff_ne.mpr fun same => plain (same ▸ member)
    rw [colonKey?, List.dropWhile_append_of_pos inside, List.takeWhile_append_of_pos inside]
    simp

/-- What ends with a quote is taken for a pair if it opens like one. -/
theorem isSome_colonPair?_iff_opensLikePair {cs : List Char}
    (last : ('"' :: cs).getLast? = some '"') :
    (colonPair? ('"' :: cs)).isSome = true ↔ OpensLikePair ('"' :: cs) := by
  constructor
  · intro pair
    obtain ⟨value, pair⟩ := Option.isSome_iff_exists.mp pair
    obtain ⟨⟨key, rest⟩, found, more⟩ := Option.bind_eq_some_iff.mp pair
    obtain ⟨rfl, plain⟩ := colonKey?_eq_some_iff.mp found
    simp only [length_trimStart_beq, Option.ite_none_left_eq_some, Bool.or_eq_true, not_or] at more
    exact ⟨key, rest, rfl, plain, by simpa using more.1.1.1, by simpa using more.1.2⟩
  · rintro ⟨key, rest, same, plain, blank, line⟩
    obtain ⟨-, rfl⟩ := List.cons.inj same
    have found : colonKey? ('"' :: (key ++ '"' :: ':' :: rest)) = some (key, rest) :=
      colonKey?_eq_some_iff.mpr ⟨rfl, plain⟩
    have quote : '"' ∈ rest := by
      apply List.mem_of_getLast?
      cases rest with
      | nil => cases blank
      | cons c rest => simpa [List.getLast?_append, List.getLast?_cons] using last
    have kept : ['"'] <:+: trimStart rest :=
      infix_dropWhile rfl ((List.singleton_infix_iff _ _).mpr quote)
    have value : trimStart rest ≠ [] := List.ne_nil_of_length_pos kept.length_le
    simp [colonPair?, found, length_trimStart_beq, blank, value, line]

/-- The state in which the scan of a line reads the inside of a literal. -/
def opened : Scan := ⟨0, some '"', 0⟩

/-- Before the first interpolation no mark is exposed. -/
theorem not_atTop_of_staysInside {text rest : List Char} (plain : ¬ ['#', '\x7b'] <:+: text)
    (stays : opened.StaysInside '"' false (some '"') (text ++ rest)) (more : rest ≠ []) :
    (Nesting.start.over ('"' :: text)).atTop = false := by
  have read (n : Nat) (most : n ≤ text.length) :
      (opened.readFrom false (some '"') (text.take n)).1.quote = some '"' := by
    have shorter : n < (text ++ rest).length := by
      rw [List.length_append]
      exact Nat.lt_of_le_of_lt most (Nat.lt_add_of_pos_right (List.length_pos_iff.mpr more))
    have still := stays n shorter
    rwa [List.take_append_of_le_length most] at still
  have still := read text.length (Nat.le_refl _)
  rw [List.take_length] at still
  have quote : (Nesting.over ⟨0, some '"', false⟩ text).quote = some '"' :=
    Nesting.quote_over_of_plain plain rfl rfl (fun n shorter => read n (Nat.le_of_lt shorter)) still
  have same : Nesting.start.over ('"' :: text) = Nesting.over ⟨0, some '"', false⟩ text := rfl
  rw [Nesting.atTop, same, quote]
  rfl

namespace IsInterpolated

variable (literal : IsInterpolated code)

include literal

theorem interpolation : ['#', '\x7b'] <:+: code := by
  obtain ⟨n, -, counted⟩ := literal.interpolates
  by_contra plain
  have inside : ¬ ['#', '\x7b'] <:+: code.take n := fun inside =>
    plain (inside.trans (List.take_prefix n code).isInfix)
  exact Nat.not_lt.mpr (Scan.interpolations_readFrom_le (s := .start) inside false none) counted

/-- Behind its first quote the literal is read inside of the quote, to the last one. -/
theorem exists_eq_cons : ∃ text, code = '"' :: text ∧
    opened.StaysInside '"' false (some '"') text ∧ text.getLast? = some '"' := by
  have long : 1 < code.length := literal.interpolation.length_le
  cases code with
  | nil => cases long
  | cons c text =>
      have first := literal.opens 1 long Nat.one_pos
      have quote : c = '"' := by
        simp only [List.take_succ_cons, List.take_zero, Scan.read, Scan.readFrom, Scan.start,
          Scan.stepCode] at first
        split_ifs at first <;> simp_all
      subst quote
      have stays : opened.StaysInside '"' false (some '"') text := by
        intro n shorter
        exact literal.opens (n + 1) (Nat.succ_lt_succ shorter) (Nat.succ_pos n)
      exact ⟨text, rfl, stays, Scan.getLast?_of_staysInside stays rfl literal.closes⟩

theorem isSolid : IsSolid code := by
  obtain ⟨text, rfl, -, last⟩ := literal.exists_eq_cons
  refine ⟨rfl, ?_⟩
  rw [List.getLast?_cons, last]
  rfl

theorem getLast?_eq : code.getLast? = some '"' := by
  obtain ⟨text, rfl, -, last⟩ := literal.exists_eq_cons
  rw [List.getLast?_cons, last]
  rfl

/-- A mark that is exposed stands between the quotes, and has an interpolation before it. -/
theorem of_exposed {c : Char} {before after : List Char} (plain : '"' ∉ c :: mark)
    (split : code = before ++ (c :: mark ++ after))
    (top : (Nesting.start.over before).atTop = true) :
    (∃ text, before = '"' :: text) ∧ ['#', '\x7b'] <:+: before ∧ '"' ∈ after := by
  obtain ⟨whole, rfl, stays, -⟩ := literal.exists_eq_cons
  cases before with
  | nil =>
      obtain ⟨rfl, -⟩ := List.cons.inj split
      exact absurd (.head _) plain
  | cons d text =>
      rw [List.cons_append] at split
      obtain ⟨rfl, rfl⟩ := List.cons.inj split
      refine ⟨⟨text, rfl⟩, ?_, ?_⟩
      · by_contra uninterpolated
        have inner : ¬ ['#', '\x7b'] <:+: text := fun inside =>
          uninterpolated (inside.trans (List.suffix_cons _ _).isInfix)
        rw [not_atTop_of_staysInside inner stays nofun] at top
        cases top
      · have last := literal.getLast?_eq
        rw [← List.cons_append, List.getLast?_append, List.getLast?_append] at last
        cases ends : after.getLast? with
        | some d =>
            rw [ends] at last
            cases last
            exact List.mem_of_getLast? ends
        | none =>
            rw [ends] at last
            exact absurd (List.mem_of_getLast? (by simpa using last)) plain

/-- An exposed comma makes two parts at least. -/
theorem two_le_length_split (exposed : Nesting.start.Exposes [','] code) :
    2 ≤ (split ',' code).length := by
  obtain ⟨before, after, rfl, top⟩ := exposed
  have parts {s : Nesting} {text : List Char} (quote : '"' ∈ text) :
      1 ≤ (((pieces ',' s text).map trim).filter fun part => !part.isEmpty).length := by
    obtain ⟨piece, among, inside⟩ : ∃ piece ∈ pieces ',' s text, '"' ∈ piece :=
      exists_mem_pieces (by decide) quote
    have solid : IsSolid ['"'] := ⟨rfl, rfl⟩
    have kept : ['"'] <:+: trim piece :=
      infix_trim_of_solid solid ((List.singleton_infix_iff _ _).mpr inside)
    refine List.length_pos_of_mem (List.mem_filter.mpr ⟨List.mem_map_of_mem among, ?_⟩)
    have some : trim piece ≠ [] := List.ne_nil_of_length_pos kept.length_le
    simpa using some
  obtain ⟨⟨text, rfl⟩, -, last⟩ := literal.of_exposed (by decide) rfl top
  rw [split, List.singleton_append, pieces_append_cut rfl top, List.map_append, List.filter_append,
    List.length_append]
  exact Nat.add_le_add (parts (.head _)) (parts last)

/-- A comma that is exposed makes a list or a map of the literal. -/
theorem parse_ne_raw_of_exposed (exposed : Nesting.start.Exposes [','] code) (source : String) :
    parse code ≠ .raw source := by
  have parts : 1 < (split ',' code).length := literal.two_le_length_split exposed
  rw [parse, literal.isSolid.trim_eq, expressionWith_eq, if_pos parts]
  intro same
  cases pairs : pairsWith? single (split ',' code) with
  | none =>
      rw [pairs] at same
      cases same
  | some value =>
      obtain ⟨entries, rfl⟩ := exists_eq_map_of_pairsWith? pairs
      rw [pairs] at same
      cases same

/-- Before an arrow that is exposed there is no key. -/
theorem arrowKeyWith?_eq_none {before after : List Char}
    (found : splitAtMark? ['=', '>'] .start code = some (before, after)) :
    arrowKeyWith? single (trim before) = none := by
  obtain ⟨split, top⟩ := exists_of_splitAtMark? found
  obtain ⟨⟨text, rfl⟩, inside, -⟩ := literal.of_exposed (by decide) split top
  have kept : ['#', '\x7b'] <:+: trim ('"' :: text) :=
    infix_trim_of_solid ⟨rfl, rfl⟩ inside
  have opening : trimStart ('"' :: text) = '"' :: text := rfl
  obtain ⟨rest, same⟩ : ∃ rest, trim ('"' :: text) = '"' :: rest := by
    have starts : trim ('"' :: text) <+: '"' :: text := by
      rw [trim, opening]
      exact prefix_trimEnd _
    cases trimmed : trim ('"' :: text) with
    | nil =>
        rw [trimmed] at kept
        cases List.infix_nil.mp kept
    | cons c rest =>
        rw [trimmed] at starts
        obtain ⟨rfl, -⟩ := List.cons_prefix_cons.mp starts
        exact ⟨rest, rfl⟩
  have unnamed : symbol? ('"' :: rest) = none := rfl
  rw [same] at kept ⊢
  rw [arrowKeyWith?, unnamed]
  dsimp only
  rw [single_of_interpolation kept]

/-- The literal is taken for a pair if it looks like one and no arrow is exposed. -/
theorem pairWith?_eq_none_iff :
    pairWith? single code = none ↔
      Nesting.start.Exposes ['=', '>'] code ∨ ¬ OpensLikePair code := by
  rw [← isSome_splitAtMark?_iff rfl, pairWith?]
  cases found : splitAtMark? ['=', '>'] .start code with
  | some halves => simp [literal.arrowKeyWith?_eq_none found]
  | none =>
      obtain ⟨text, rfl, -⟩ := literal.exists_eq_cons
      simp [← isSome_colonPair?_iff_opensLikePair literal.getLast?_eq]

end IsInterpolated

/-- A string with an interpolation is kept as it is written exactly if the interpolations expose no
comma, and the string does not open like a pair, or an arrow is exposed as well. -/
theorem parse_interpolated_iff (literal : IsInterpolated code) :
    parse code = .raw (String.ofList code) ↔
      ¬ Nesting.start.Exposes [','] code ∧
        (Nesting.start.Exposes ['=', '>'] code ∨ ¬ OpensLikePair code) := by
  rw [← literal.pairWith?_eq_none_iff]
  by_cases exposed : Nesting.start.Exposes [','] code
  · exact iff_of_false (literal.parse_ne_raw_of_exposed exposed _) fun kept => kept.1 exposed
  · have whole := split_of_uncut (uncut_of_not_exposes exposed) literal.isSolid
    obtain ⟨text, rfl, -⟩ := literal.exists_eq_cons
    rw [parse, literal.isSolid.trim_eq, and_iff_right exposed]
    constructor
    · intro read
      cases pair : pairWith? single ('"' :: text) with
      | none => rfl
      | some pair => simp [expressionWith_eq, whole, pairsWith?, pair] at read
    · intro pairless
      rw [expressionWith_of_single whole pairless, single_of_interpolation literal.interpolation]

/-- Quotes in an interpolation do no harm as long as nothing is exposed between them. -/
theorem parse_interpolated_index :
    IsInterpolated "\"#\x7bnode[\"a\"]\x7d\"".toList ∧
      parse "\"#\x7bnode[\"a\"]\x7d\"".toList = .raw "\"#\x7bnode[\"a\"]\x7d\"" := by
  have literal : IsInterpolated "\"#\x7bnode[\"a\"]\x7d\"".toList :=
    ⟨by decide, by decide, ⟨3, by decide, by decide⟩⟩
  have comma : ¬ Nesting.start.Exposes [','] "\"#\x7bnode[\"a\"]\x7d\"".toList := by
    rw [← isSome_splitAtMark?_iff rfl]
    decide
  have pair : ¬ OpensLikePair "\"#\x7bnode[\"a\"]\x7d\"".toList := by
    refine (isSome_colonPair?_iff_opensLikePair rfl).not.mp ?_
    decide
  exact ⟨literal, (parse_interpolated_iff literal).mpr ⟨comma, .inr pair⟩⟩

/-- An argument with a comma is cut out of its interpolation, and two other strings are taken for
pairs: one whose interpolation has a colon behind a quote, and one with an escaped quote. -/
theorem not_parse_interpolated :
    (IsInterpolated "\"#\x7bf(\"a, b\")\x7d\"".toList ∧
      parse "\"#\x7bf(\"a, b\")\x7d\"".toList ≠ .raw "\"#\x7bf(\"a, b\")\x7d\"") ∧
    (IsInterpolated "\"#\x7bx + \": y\"\x7d\"".toList ∧
      parse "\"#\x7bx + \": y\"\x7d\"".toList ≠ .raw "\"#\x7bx + \": y\"\x7d\"") ∧
    (IsInterpolated "\"a\\\": #\x7bx\x7d\"".toList ∧
      parse "\"a\\\": #\x7bx\x7d\"".toList ≠ .raw "\"a\\\": #\x7bx\x7d\"") := by
  have cut : parse "\"#\x7bf(\"a, b\")\x7d\"".toList =
      .list [.raw "\"#\x7bf(\"a", .raw "b\")\x7d\""] := rfl
  have paired : parse "\"#\x7bx + \": y\"\x7d\"".toList =
      .map [("#\x7bx + ", .raw "y\"\x7d\"")] := rfl
  have escaped : parse "\"a\\\": #\x7bx\x7d\"".toList =
      .map [("a\\", .raw "#\x7bx\x7d\"")] := rfl
  rw [cut, paired, escaped]
  refine ⟨⟨?_, nofun⟩, ⟨?_, nofun⟩, ?_, nofun⟩
  · exact ⟨by decide, by decide, 3, by decide, by decide⟩
  · exact ⟨by decide, by decide, 3, by decide, by decide⟩
  · exact ⟨by decide, by decide, 8, by decide, by decide⟩

end Value

end Rolewright
