/-
# What passes for a heredoc opener

The argument of a property passes for an opener whether or not it has a flag or a quote
(`isHeredocToken`), but a line of code opens a heredoc only if the opener has one of them. So of the
one opener in a line all depends on the character behind its two marks (`opened_eq`). Without a
heredoc an opener is no literal, and stands for itself (`Value.parse_token`).
-/

import Rolewright.Proofs.Recipe.Heredocs

namespace Rolewright

namespace Text

theorem eq_append_of_takeIdent {start inner : Char → Bool} {text word rest : List Char}
    (taken : takeIdent start inner text = some (word, rest)) :
    text = word ++ rest ∧ word.head?.any start = true ∧
      ∀ c ∈ word, start c = true ∨ inner c = true := by
  obtain ⟨c, cs, rfl, first, rfl, rfl⟩ := exists_of_takeIdent taken
  refine ⟨by rw [List.cons_append, List.takeWhile_append_dropWhile], first, fun d member => ?_⟩
  rcases List.mem_cons.mp member with rfl | later
  · exact .inl first
  · exact .inr (List.mem_takeWhile_imp later)

end Text

namespace Recipe

open Text

/-! ## The spelling of an opener -/

namespace Heredoc

variable {argument more : List Char} {flag quote : Option Char} {tag : List Char} {c : Char}

/-- Whether a character marks an opener whose body loses its indentation, or one that may stand
indented. -/
def isFlag (c : Char) : Bool :=
  c == '~' || c == '-'

/-- The parts of an opener: its flag, its quotes, of which there may be one or none, and its tag. -/
structure IsSpelled (argument : List Char) (flag quote : Option Char) (tag : List Char)
    (closing : Option Char) : Prop where
  split : argument = '<' :: '<' :: (flag.toList ++ (quote.toList ++ (tag ++ closing.toList)))
  flag : ∀ c ∈ flag, isFlag c = true
  quote : ∀ c ∈ quote, Opener.isQuote c = true
  closing : ∀ c ∈ closing, Opener.isQuote c = true
  starts : tag.head?.any tagStart = true
  inner : ∀ c ∈ tag, tagInner c = true

theorem exists_of_optional {p : Char → Bool} {text rest : List Char} {found : Option Char}
    (read : optional p text = (found, rest)) :
    text = found.toList ++ rest ∧ ∀ c ∈ found, p c = true := by
  cases text with
  | nil =>
      cases read
      exact ⟨rfl, nofun⟩
  | cons c cs =>
      rw [optional] at read
      split at read
      · rename_i holds
        cases read
        exact ⟨rfl, fun d same => Option.some.inj same ▸ holds⟩
      · cases read
        exact ⟨rfl, nofun⟩

theorem tagInner_of_tagStart (starts : tagStart c = true) : tagInner c = true := by
  rcases (Bool.or_eq_true _ _).mp starts with upper | underscore
  · simp [tagInner, upper]
  · simp [tagInner, underscore]

/-- What is read as an opener is spelled like one. -/
theorem exists_isSpelled (token : isHeredocToken argument = true) :
    ∃ flag quote tag closing, IsSpelled argument flag quote tag closing := by
  unfold isHeredocToken at token
  split at token
  · rename_i flag quote tag size found
    unfold opener? at found
    split at found
    · rename_i cs
      cases flagged : optional (fun c => c == '~' || c == '-') cs with
      | mk flag' unflagged =>
      cases quoted : optional (fun c => c == '\'' || c == '"') unflagged with
      | mk quote' unquoted =>
      simp only [flagged, quoted] at found
      split at found
      · rename_i tag' rest taken
        cases closed : optional (fun c => c == '\'' || c == '"') rest with
        | mk closing after =>
        rw [closed] at found
        cases found
        obtain ⟨rfl, marks⟩ := exists_of_optional flagged
        obtain ⟨rfl, quotes⟩ := exists_of_optional quoted
        obtain ⟨rfl, starts, inner⟩ := eq_append_of_takeIdent taken
        obtain ⟨rfl, closing⟩ := exists_of_optional closed
        have whole := beq_iff_eq.mp token
        simp only [List.length_append, List.length_cons] at whole
        obtain rfl : after = [] := List.length_eq_zero_iff.mp (by omega)
        refine ⟨flag, quote, tag, _, ⟨by rw [List.append_nil], marks, quotes, closing, starts,
          fun c member => (inner c member).elim tagInner_of_tagStart id⟩⟩
      · cases found
    · cases found
  · cases token

theorem optional_toList {p : Char → Bool} {found : Option Char} {rest : List Char}
    (holds : ∀ c ∈ found, p c = true) (stops : found = none → ∀ c ∈ rest.head?, p c = false) :
    optional p (found.toList ++ rest) = (found, rest) := by
  cases found with
  | none => exact Opener.optional_eq_none (stops rfl)
  | some c => exact if_pos (holds c rfl)

theorem not_mark_of_tagStart (starts : tagStart c = true) :
    isFlag c = false ∧ Opener.isQuote c = false := by
  have other (d : Char) (differs : tagStart d = false) : (c == d) = false :=
    beq_of_kind starts differs
  simp [isFlag, Opener.isQuote, other '~' (by decide), other '-' (by decide),
    other '\'' (by decide), other '"' (by decide)]

namespace IsSpelled

variable {closing : Option Char} (spelled : IsSpelled argument flag quote tag closing)

include spelled

/-- A tag begins with no mark. -/
theorem not_mark_of_head? (rest : List Char) (first : c ∈ (tag ++ rest).head?) :
    isFlag c = false ∧ Opener.isQuote c = false := by
  have starts := spelled.starts
  cases tag with
  | nil => cases starts
  | cons d ds => exact Option.some.inj first ▸ not_mark_of_tagStart starts

theorem isFlag_of_head? (rest : List Char) (first : c ∈ (quote.toList ++ (tag ++ rest)).head?) :
    isFlag c = false := by
  cases found : quote with
  | none =>
      rw [found] at first
      exact (spelled.not_mark_of_head? rest first).1
  | some q =>
      rw [found] at first
      obtain rfl := Option.some.inj first
      have quoted := spelled.quote q found
      simp only [Opener.isQuote, Bool.or_eq_true, beq_iff_eq] at quoted
      rcases quoted with rfl | rfl <;> decide

/-- An opener ends where its tag does not go on and no quote follows. -/
theorem opener?_append (stops : ∀ c ∈ more.head?, Opener.ends c = false) :
    opener? (argument ++ more) = some (flag, quote, tag, argument.length) := by
  have apart (c : Char) (first : c ∈ more.head?) :
      tagInner c = false ∧ Opener.isQuote c = false := by
    have other := stops c first
    rw [Opener.ends, Bool.or_assoc, Bool.or_eq_false_iff] at other
    exact other
  have flagged : optional isFlag
      (flag.toList ++ (quote.toList ++ (tag ++ (closing.toList ++ more)))) =
        (flag, quote.toList ++ (tag ++ (closing.toList ++ more))) :=
    optional_toList spelled.flag fun _ _ => spelled.isFlag_of_head? _
  have quoted : optional Opener.isQuote (quote.toList ++ (tag ++ (closing.toList ++ more))) =
      (quote, tag ++ (closing.toList ++ more)) :=
    optional_toList spelled.quote fun _ _ first => (spelled.not_mark_of_head? _ first).2
  have taken : takeIdent tagStart tagInner (tag ++ (closing.toList ++ more)) =
      some (tag, closing.toList ++ more) := by
    refine takeIdent_append_of_stops (takeIdent_whole spelled.starts ?_) fun c first => ?_
    · exact List.all_eq_true.mpr spelled.inner
    · cases found : closing with
      | none =>
          rw [found] at first
          exact (apart c first).1
      | some q =>
          rw [found] at first
          obtain rfl := Option.some.inj first
          have quoted := spelled.closing q found
          simp only [Opener.isQuote, Bool.or_eq_true, beq_iff_eq] at quoted
          rcases quoted with rfl | rfl <;> decide
  have closed : optional Opener.isQuote (closing.toList ++ more) = (closing, more) :=
    optional_toList spelled.closing fun _ c first => (apart c first).2
  unfold isFlag at flagged
  unfold Opener.isQuote at quoted closed
  rw [spelled.split]
  simp only [List.cons_append, List.append_assoc, opener?, flagged, quoted, taken, closed]
  simp
  omega

/-- Behind its two marks an opener has a flag, quotes and a tag. -/
theorem exists_tail : ∃ c cs, argument = '<' :: '<' :: c :: cs ∧
    ∀ d ∈ c :: cs, isFlag d = true ∨ Opener.ends d = true := by
  have quoted {d : Char} (quote : Opener.isQuote d = true) : Opener.ends d = true := by
    rw [Opener.ends, Bool.or_assoc]
    exact (Bool.or_eq_true _ _).mpr (.inr quote)
  have parts : ∀ d ∈ flag.toList ++ (quote.toList ++ (tag ++ closing.toList)),
      isFlag d = true ∨ Opener.ends d = true := by
    simp only [List.mem_append, Option.mem_toList]
    rintro d (mark | before | inside | behind)
    · exact .inl (spelled.flag d mark)
    · exact .inr (quoted (spelled.quote d before))
    · exact .inr (by simp [Opener.ends, spelled.inner d inside])
    · exact .inr (quoted (spelled.closing d behind))
  have split := spelled.split
  cases tail : flag.toList ++ (quote.toList ++ (tag ++ closing.toList)) with
  | nil =>
      have starts := spelled.starts
      simp only [List.append_eq_nil_iff] at tail
      rw [tail.2.2.1] at starts
      cases starts
  | cons c cs => exact ⟨c, cs, tail ▸ split, tail ▸ parts⟩

/-- No character but these stands in an opener. -/
theorem not_mem (word : isAsciiWord c = false) (other : c ∉ ['<', '~', '-', '\'', '"']) :
    c ∉ argument := by
  obtain ⟨d, ds, rfl, parts⟩ := spelled.exists_tail
  simp only [List.mem_cons, List.not_mem_nil, not_or, or_false] at other
  intro member
  rcases List.mem_cons.mp member with same | member
  · exact other.1 same
  rcases List.mem_cons.mp member with same | member
  · exact other.1 same
  rcases parts c member with mark | last
  · simp only [isFlag, Bool.or_eq_true, beq_iff_eq] at mark
    tauto
  · simp only [Opener.ends, Bool.or_eq_true, beq_iff_eq] at last
    rcases last with (inside | same) | same
    · exact Bool.false_ne_true (word.symm.trans (isAsciiWord_of_tagInner inside))
    · tauto
    · tauto

theorem isBlank_of_mem (member : c ∈ argument) : isBlank c = false := by
  obtain ⟨d, ds, rfl, parts⟩ := spelled.exists_tail
  rcases List.mem_cons.mp member with rfl | member
  · decide
  rcases List.mem_cons.mp member with rfl | member
  · decide
  rcases parts c member with mark | last
  · simp only [isFlag, Bool.or_eq_true, beq_iff_eq] at mark
    rcases mark with rfl | rfl <;> decide
  · exact Opener.isBlank_of_ends last

theorem isSolid : IsSolid argument := by
  obtain ⟨c, cs, same, -⟩ := spelled.exists_tail
  have some : argument ≠ [] := by
    rw [same]
    exact List.cons_ne_nil _ _
  constructor
  · rw [same]
    rfl
  · rw [List.getLast?_eq_some_getLast some, Option.any_some,
      spelled.isBlank_of_mem (List.getLast_mem some)]
    rfl

/-- The mark that opens a heredoc is a flag or a quote. -/
theorem opensHeredoc_eq : opensHeredoc argument = (flag.isSome || quote.isSome) := by
  have starts := spelled.starts
  rw [spelled.split]
  cases found : flag with
  | some c =>
      have mark := spelled.flag c found
      simp only [isFlag, Bool.or_eq_true, beq_iff_eq] at mark
      rcases mark with rfl | rfl <;> rfl
  | none =>
      cases found : quote with
      | some c =>
          have mark := spelled.quote c found
          simp only [Opener.isQuote, Bool.or_eq_true, beq_iff_eq] at mark
          rcases mark with rfl | rfl <;> rfl
      | none =>
          cases tag with
          | nil => cases starts
          | cons c cs =>
              obtain ⟨flag, quote⟩ := not_mark_of_tagStart (c := c) starts
              change (isFlag c || c == '\'' || c == '"') = false
              rw [flag, Bool.or_assoc]
              exact quote

/-- A line of code with an opener opens the heredoc of it, if it has a flag or a quote. -/
theorem opened_eq {before after : List Char} (plain : '<' ∉ before) (plain' : '<' ∉ after)
    (stops : ∀ c ∈ after.head?, Opener.ends c = false) :
    opened (before ++ (argument ++ after)) =
      if opensHeredoc argument then [⟨tag, flag == some '~'⟩] else [] := by
  have here := spelled.opener?_append stops
  rw [opened_append plain, spelled.opensHeredoc_eq, opened]
  obtain ⟨c, cs, rfl, -⟩ := spelled.exists_tail
  have later : openedAfter (('<' :: '<' :: c :: cs).length - 1) ('<' :: c :: cs ++ after) = [] := by
    have reach : ('<' :: '<' :: c :: cs).length - 1 = ('<' :: c :: cs).length := rfl
    rw [reach, openedAfter_append_of_length, openedAfter_of_not_mem plain']
  rw [List.cons_append] at here ⊢
  rw [openedAfter, here]
  simp only [later]

/-- So does the opener by itself. -/
theorem opened_self :
    opened argument = if opensHeredoc argument then [⟨tag, flag == some '~'⟩] else [] := by
  have alone : opened ([] ++ (argument ++ [])) = _ :=
    spelled.opened_eq List.not_mem_nil List.not_mem_nil nofun
  rwa [List.nil_append, List.append_nil] at alone

theorem opened_around {before after : List Char} (plain : '<' ∉ before) (plain' : '<' ∉ after)
    (stops : ∀ c ∈ after.head?, Opener.ends c = false) :
    opened (before ++ (argument ++ after)) = opened argument := by
  rw [spelled.opened_eq plain plain' stops, spelled.opened_self]

end IsSpelled

end Heredoc

end Recipe

namespace Value

open Text Recipe

theorem pieces_of_not_mem {sep : Char} {text : List Char} (plain : sep ∉ text) (s : Nesting) :
    pieces sep s text = [text] := by
  induction text generalizing s with
  | nil => rfl
  | cons c cs ih =>
      have other : (c == sep) = false := beq_false_of_ne fun same => plain (same ▸ .head _)
      rw [pieces, other, Bool.and_false, Bool.false_and, if_neg Bool.false_ne_true,
        ih fun member => plain (.tail _ member)]

/-- An opener without a heredoc is no literal. -/
theorem parse_token {argument : List Char} (token : isHeredocToken argument = true) :
    parse argument = .raw (String.ofList argument) := by
  obtain ⟨flag, quote, tag, closing, spelled⟩ := Heredoc.exists_isSpelled token
  have solid := spelled.isSolid
  have parts : split ',' argument = [argument] := by
    rw [split, pieces_of_not_mem (spelled.not_mem (by decide) (by decide)), List.map_singleton,
      solid.trim_eq]
    simp [solid.isEmpty_eq]
  have arrow : splitAtMark? ['=', '>'] .start argument = none :=
    splitAtMark?_of_not_mem (spelled.not_mem (by decide) (by decide)) _
  have pair (shorter : List Char → Value) : pairWith? shorter argument = none := by
    have colon : colonPair? argument = none := by
      obtain ⟨c, cs, rfl, -⟩ := spelled.exists_tail
      rfl
    rw [pairWith?, arrow, colon]
    rfl
  rw [parse, solid.trim_eq, expressionWith_of_single parts (pair _), single, singleWithin]
  obtain ⟨c, cs, rfl, -⟩ := spelled.exists_tail
  have group : enclosed? '(' ')' ('<' :: '<' :: c :: cs) = none := rfl
  have leaf : leaf? ('<' :: '<' :: c :: cs) = none := by
    simp [leaf?, stringLiteral?, quotedLiteral?, wordList?, symbolLiteral?, symbol?, keyword?,
      number?]
  rw [singleWith, group, leaf]
  rfl

end Value

end Rolewright
