/-
# Strings written and read again

A string is written with a backslash before each of its quotes, and with nothing before a backslash
of its own. What such a literal is read as depends on two things: on what follows the backslashes of
the string (`reread_eq_self_iff`), and on whether the string, behind its first quote, goes on like
a pair, since the reader of pairs knows no escapes (`isSome_colonPair?_quoted_iff`). Exactly if
neither is amiss the literal is read as the string (`parse_source_str_iff`).
-/

import Rolewright.Proofs.Value.Leaves

namespace Rolewright.Value

open Recipe Text

variable {text key rest : List Char}

/-! ## The escaped text -/

@[simp] theorem escaped_nil : escaped [] = [] := rfl

@[simp] theorem escaped_quote (cs : List Char) :
    escaped ('\'' :: cs) = '\\' :: '\'' :: escaped cs := rfl

theorem escaped_cons {c : Char} (other : c ≠ '\'') (cs : List Char) :
    escaped (c :: cs) = c :: escaped cs := by
  simp [escaped, replaceChar, other]

theorem escaped_append (front back : List Char) :
    escaped (front ++ back) = escaped front ++ escaped back :=
  List.flatMap_append

theorem mem_escaped_iff {c : Char} (quote : c ≠ '\'') (backslash : c ≠ '\\') :
    c ∈ escaped text ↔ c ∈ text := by
  induction text with
  | nil => exact Iff.rfl
  | cons d ds ih =>
      by_cases same : d = '\''
      · subst same
        simp [ih, quote, backslash]
      · rw [escaped_cons same, List.mem_cons, List.mem_cons, ih]

/-! ## Backslashes -/

/-- No backslash escapes what follows it: that is there, and it is neither a backslash nor a
quote. -/
def BackslashesStand (text : List Char) : Prop :=
  ∀ rest, '\\' :: rest <:+ text → rest.head?.any (fun c => c != '\\' && c != '\'') = true

theorem backslashesStand_nil : BackslashesStand [] := by
  intro rest suffix
  cases List.suffix_nil.mp suffix

theorem backslashesStand_cons_iff {c : Char} {cs : List Char} :
    BackslashesStand (c :: cs) ↔
      (c = '\\' → cs.head?.any (fun d => d != '\\' && d != '\'') = true) ∧
        BackslashesStand cs := by
  constructor
  · intro stands
    refine ⟨?_, fun rest suffix => stands rest (suffix.trans (List.suffix_cons _ _))⟩
    rintro rfl
    exact stands cs List.suffix_rfl
  · rintro ⟨here, later⟩ rest suffix
    rcases List.suffix_cons_iff.mp suffix with same | suffix
    · obtain ⟨rfl, rfl⟩ := List.cons.inj same
      exact here rfl
    · exact later rest suffix

/-- What a text is read as when it has been written: a backslash takes what follows it along, so
two are read as one, and before a quote or at the end of the text the literal ends too early or
not at all. -/
def reread : List Char → Option (List Char)
  | [] => some []
  | '\\' :: c :: cs =>
    -- The quote is written with a backslash of its own, and it is that one which is escaped.
    if c = '\'' then none
    else if c = '\\' then (reread cs).map ('\\' :: ·)
    else (reread cs).map (['\\', c] ++ ·)
  | c :: cs => if c = '\\' then none else (reread cs).map (c :: ·)

theorem unquote?_escaped (text : List Char) :
    unquote? '\'' (escaped text ++ ['\'']) = reread text := by
  fun_induction reread text with
  | case1 => rfl
  | case2 cs => simp [escaped_cons, unquote?]
  | case3 cs _ ih => simp [escaped_cons, unquote?, ih]
  | case4 c cs quote backslash ih => simp [escaped_cons, quote, unquote?, backslash, ih]
  | case5 cs last =>
      cases cs with
      | nil => rfl
      | cons c cs => exact (last c cs rfl rfl).elim
  | case6 c cs _ backslash ih =>
      by_cases quote : c = '\''
      · subst quote
        simp [unquote?, ih]
      · simp [escaped_cons quote, unquote?, backslash, quote, ih]

theorem length_reread_le {read : List Char} (found : reread text = some read) :
    read.length ≤ text.length := by
  fun_induction reread text generalizing read with
  | case1 =>
      cases found
      exact Nat.le_refl 0
  | case2 | case5 => cases found
  | case3 cs _ ih =>
      obtain ⟨inner, known, rfl⟩ := Option.map_eq_some_iff.mp found
      exact Nat.succ_le_succ (Nat.le_succ_of_le (ih known))
  | case4 c cs _ _ ih =>
      obtain ⟨inner, known, rfl⟩ := Option.map_eq_some_iff.mp found
      exact Nat.succ_le_succ (Nat.succ_le_succ (ih known))
  | case6 c cs _ _ ih =>
      obtain ⟨inner, known, rfl⟩ := Option.map_eq_some_iff.mp found
      exact Nat.succ_le_succ (ih known)

/-- A text is read as itself if its backslashes stand, and only then: where two of them are read as
one, something is missing in the end. -/
theorem reread_eq_self_iff : reread text = some text ↔ BackslashesStand text := by
  fun_induction reread text with
  | case1 => simp [backslashesStand_nil]
  | case2 cs => simp [backslashesStand_cons_iff]
  | case3 cs _ ih =>
      refine iff_of_false (fun same => ?_) (by simp [backslashesStand_cons_iff])
      obtain ⟨read, known, equal⟩ := Option.map_eq_some_iff.mp same
      have short := length_reread_le known
      rw [(List.cons.inj equal).2] at short
      exact Nat.not_succ_le_self _ short
  | case4 c cs quote backslash ih =>
      simp [backslashesStand_cons_iff, quote, backslash, ← ih]
  | case5 cs last =>
      cases cs with
      | nil => simp [backslashesStand_cons_iff]
      | cons c cs => exact (last c cs rfl rfl).elim
  | case6 c cs _ backslash ih => simp [backslashesStand_cons_iff, backslash, ← ih]

/-- Where backslashes stand, each of those written escapes the character behind it. -/
theorem BackslashesStand.isEscaped (stands : BackslashesStand text) :
    IsEscaped '\'' (escaped text) := by
  fun_induction reread text with
  | case1 => exact .nil
  | case2 | case3 => simp [backslashesStand_cons_iff] at stands
  | case4 c cs quote backslash ih =>
      rw [escaped_cons (by decide), escaped_cons quote]
      simp only [backslashesStand_cons_iff] at stands
      exact .pair (ih stands.2.2)
  | case5 cs last =>
      cases cs with
      | nil => simp [backslashesStand_cons_iff] at stands
      | cons c cs => exact (last c cs rfl rfl).elim
  | case6 c cs _ backslash ih =>
      have inner := ih (backslashesStand_cons_iff.mp stands).2
      by_cases quote : c = '\''
      · subst quote
        exact .pair inner
      · rw [escaped_cons quote]
        exact .plain quote backslash inner

/-! ## Pairs -/

/-- Behind its first quote the text goes on as a pair does behind its key: with a colon, a blank,
and the rest of one line. -/
def LooksPaired (text : List Char) : Prop :=
  ∃ key rest, text = key ++ '\'' :: ':' :: rest ∧ '\'' ∉ key ∧
    rest.head?.any isBlank = true ∧ '\n' ∉ trimStart rest

theorem trimStart_escaped (rest : List Char) :
    trimStart (escaped rest ++ ['\'']) = escaped (trimStart rest) ++ ['\''] := by
  induction rest with
  | nil => rfl
  | cons c cs ih =>
      by_cases quote : c = '\''
      · subst quote
        rfl
      · rw [escaped_cons quote, List.cons_append]
        cases blank : isBlank c with
        | true => simpa [trimStart, blank] using ih
        | false => simp [trimStart, blank, escaped_cons quote]

theorem length_escaped_trimStart_le (rest : List Char) :
    (escaped (trimStart rest)).length ≤ (escaped rest).length := by
  obtain ⟨blanks, split⟩ := suffix_trimStart rest
  have whole := congrArg (List.length ∘ escaped) split
  simp only [Function.comp_apply, escaped_append, List.length_append] at whole
  omega

/-- What follows the colon makes a pair of the two if it starts with a blank, and when the blanks
are gone the rest is on one line. -/
theorem isSome_colonPair?_iff {part before : List Char}
    (found : colonKey? part = some (before, escaped rest ++ ['\''])) :
    (colonPair? part).isSome = true ↔
      rest.head?.any isBlank = true ∧ '\n' ∉ trimStart rest := by
  have value := trimStart_escaped rest
  have nonempty : (escaped (trimStart rest) ++ ['\'']).isEmpty = false := by simp
  have line : (escaped (trimStart rest) ++ ['\'']).contains '\n' =
      (trimStart rest).contains '\n' := by
    rw [Bool.eq_iff_iff]
    simp [mem_escaped_iff]
  have shorter : ((escaped (trimStart rest) ++ ['\'']).length == (escaped rest ++ ['\'']).length) =
      !rest.head?.any isBlank := by
    cases rest with
    | nil => rfl
    | cons c cs =>
        cases blank : isBlank c with
        | false => simp [trimStart, blank]
        | true =>
            have quote : c ≠ '\'' := by
              rintro rfl
              cases blank
            have short := length_escaped_trimStart_le cs
            have same : trimStart (c :: cs) = trimStart cs := by simp [trimStart, blank]
            rw [same, escaped_cons quote]
            simp only [List.length_append, List.length_cons, List.head?_cons, Option.any_some,
              blank, Bool.not_true, beq_eq_false_iff_ne]
            omega
  rw [colonPair?, found]
  simp only [Option.bind_eq_bind, Option.bind_some, value, nonempty, line, shorter]
  cases rest.head?.any isBlank <;> cases named : (trimStart rest).contains '\n' <;> simp_all

/-- The key that is looked for ends at the first quote of the text, which has a backslash before it
but counts all the same. -/
theorem colonKey?_quoted (plain : '\'' ∉ key) (after : List Char) :
    colonKey? ('\'' :: (escaped (key ++ '\'' :: after) ++ ['\''])) =
      if after.head? = some ':' then some (key ++ ['\\'], escaped after.tail ++ ['\''])
      else none := by
  have split : escaped (key ++ '\'' :: after) ++ ['\''] =
      (key ++ ['\\']) ++ '\'' :: (escaped after ++ ['\'']) := by
    rw [escaped_append, escaped_of_not_mem plain, escaped_quote]
    simp
  have inside : ∀ c ∈ key ++ ['\\'], (c != '\'') = true := by
    refine List.forall_mem_append.mpr ⟨fun c member => ?_, by simp⟩
    exact bne_iff_ne.mpr fun same => plain (same ▸ member)
  rw [split, colonKey?, List.dropWhile_append_of_pos inside, List.takeWhile_append_of_pos inside]
  cases after with
  | nil => simp
  | cons c cs =>
      by_cases colon : c = ':'
      · subst colon
        simp [escaped_cons]
      · by_cases quote : c = '\''
        · subst quote
          simp
        · simp [escaped_cons quote, colon]

/-- A string is written like a pair if it looks like one behind its first quote. -/
theorem isSome_colonPair?_quoted_iff :
    (colonPair? ('\'' :: (escaped text ++ ['\'']))).isSome = true ↔ LooksPaired text := by
  constructor
  · intro pair
    have unkeyed (none : colonKey? ('\'' :: (escaped text ++ ['\''])) = none) : False := by
      rw [colonPair?, none] at pair
      cases pair
    by_cases quote : '\'' ∈ text
    · obtain ⟨key, after, rfl, plain⟩ := List.eq_append_cons_of_mem quote
      have found := colonKey?_quoted plain after
      cases after with
      | nil => exact (unkeyed found).elim
      | cons c rest =>
          by_cases colon : c = ':'
          · subst colon
            exact ⟨key, rest, rfl, plain, (isSome_colonPair?_iff found).mp pair⟩
          · rw [if_neg (by simpa using colon)] at found
            exact (unkeyed found).elim
    · rw [escaped_of_not_mem quote] at unkeyed
      exact (unkeyed (colonKey?_of_not_mem quote)).elim
  · rintro ⟨key, rest, rfl, plain, follows⟩
    exact (isSome_colonPair?_iff (colonKey?_quoted plain (':' :: rest))).mpr follows

/-! ## The whole literal -/

theorem exists_eq_map_of_pairsWith? {shorter : List Char → Value} {parts : List (List Char)}
    {value : Value} (read : pairsWith? shorter parts = some value) :
    ∃ entries, value = .map entries := by
  unfold pairsWith? at read
  split at read
  · cases read
  · obtain ⟨pairs, -, rfl⟩ := Option.map_eq_some_iff.mp read
    exact ⟨_, rfl⟩

theorem expressionWith_eq (shorter : List Char → Value) (s : List Char) :
    expressionWith shorter s = (pairsWith? shorter (split ',' s)).getD
      (if 1 < (split ',' s).length then .list ((split ',' s).map fun part => shorter (trim part))
        else shorter s) := by
  rw [expressionWith]
  rcases split ',' s with _ | ⟨_, _ | _⟩ <;> simp

/-- What is read as a string is one expression and no pair: pairs are a map, and several expressions
a list. -/
theorem expressionWith_eq_str {shorter : List Char → Value} {s : List Char} {string : String}
    (read : expressionWith shorter s = .str string) :
    pairsWith? shorter (split ',' s) = none ∧ shorter s = .str string := by
  rw [expressionWith_eq] at read
  cases pairs : pairsWith? shorter (split ',' s) with
  | some value =>
      obtain ⟨entries, rfl⟩ := exists_eq_map_of_pairsWith? pairs
      rw [pairs] at read
      cases read
  | none =>
      rw [pairs, Option.getD_none] at read
      split at read
      · cases read
      · exact ⟨rfl, read⟩

/-- What opens with a quote is read as a string only if it is one. -/
theorem single_quoted_eq_str_iff {cs : List Char} {string : String} :
    single ('\'' :: cs) = .str string ↔ unquote? '\'' cs = some string.toList := by
  have group : enclosed? '(' ')' ('\'' :: cs) = none := rfl
  cases found : unquote? '\'' cs with
  | some text =>
      have leaf : leaf? ('\'' :: cs) = some (.str (String.ofList text)) := by
        simp [leaf?, stringLiteral?, quotedLiteral?, found]
      rw [single, singleWithin, singleWith, group, leaf]
      simp [← String.toList_inj]
  | none =>
      have leaf : leaf? ('\'' :: cs) = none := by
        have string : stringLiteral? ('\'' :: cs) = none := by
          simp [stringLiteral?, quotedLiteral?, found]
        rw [leaf?, string]
        rfl
      have compound (shorter : List Char → Value) : compoundWith? shorter ('\'' :: cs) = none := rfl
      have name : isName ('\'' :: cs) = false := rfl
      rw [single, singleWithin, singleWith, group, leaf, compound]
      refine iff_of_false (fun same => ?_) (Option.some_ne_none _).symm
      dsimp only [Option.none_or] at same
      cases path : nodeReferenceWith? (singleWithin ('\'' :: cs).length) ('\'' :: cs) with
      | some path =>
          rw [path] at same
          cases same
      | none =>
          rw [path] at same
          dsimp only at same
          rw [name, if_neg Bool.false_ne_true] at same
          cases same

section Literal

variable (stands : BackslashesStand text)

include stands

theorem uncut_literal (sep : Char) :
    Uncut sep .start ('\'' :: (escaped text ++ ['\''])) .start :=
  stands.isEscaped.uncut_quoted rfl 0

theorem pairWith?_literal_eq_none_iff (shorter : List Char → Value) :
    pairWith? shorter ('\'' :: (escaped text ++ ['\''])) = none ↔ ¬ LooksPaired text := by
  rw [pairWith?, splitAtMark?_of_uncut (uncut_literal stands '='), Option.map_eq_none_iff,
    ← isSome_colonPair?_quoted_iff, Option.not_isSome_iff_eq_none]

theorem split_literal :
    split ',' ('\'' :: (escaped text ++ ['\''])) = ['\'' :: (escaped text ++ ['\''])] :=
  split_singleton (isPiece_of_uncut (uncut_literal stands ',')) (isSolid_quoted _)

end Literal

/-- The literal of a string is read as the string exactly if the backslashes of the string stand,
and it does not look like a pair. -/
theorem parse_source_str_iff {string : String} :
    parse (source (.str string)).toList = .str string ↔
      BackslashesStand string.toList ∧ ¬ LooksPaired string.toList := by
  have solid := isSolid_quoted (escaped string.toList)
  rw [toList_source_str, parse, solid.trim_eq]
  constructor
  · intro read
    obtain ⟨pairless, alone⟩ := expressionWith_eq_str read
    have stands : BackslashesStand string.toList := by
      rw [← reread_eq_self_iff, ← unquote?_escaped]
      exact single_quoted_eq_str_iff.mp alone
    refine ⟨stands, (pairWith?_literal_eq_none_iff stands single).mp ?_⟩
    rw [split_literal stands] at pairless
    cases found : pairWith? single ('\'' :: (escaped string.toList ++ ['\''])) with
    | none => rfl
    | some pair => simp [pairsWith?, found] at pairless
  · rintro ⟨stands, unpaired⟩
    have pairless := (pairWith?_literal_eq_none_iff stands single).mpr unpaired
    rw [expressionWith_of_single (split_literal stands) pairless, single_quoted_eq_str_iff,
      unquote?_escaped, reread_eq_self_iff]
    exact stands

/-- The backslash at the end of a string escapes the closing quote, one backslash takes the next one
along, and an escaped quote is taken for the end of a key. -/
theorem not_parse_source_str :
    parse (source (.str "a\\")).toList ≠ .str "a\\" ∧
      parse (source (.str "a\\\\b")).toList ≠ .str "a\\\\b" ∧
      parse (source (.str "a': b")).toList ≠ .str "a': b" := by
  have unclosed : parse (source (.str "a\\")).toList = .raw "'a\\'" := rfl
  have merged : parse (source (.str "a\\\\b")).toList = .str "a\\b" := rfl
  have paired : parse (source (.str "a': b")).toList = .map [("a\\", .raw "b'")] := rfl
  rw [unclosed, merged, paired]
  exact ⟨nofun, by simp, nofun⟩

end Rolewright.Value
