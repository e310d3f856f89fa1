/-
# One-line forms put together

A condition is put behind a statement with a keyword and blanks between them, and a block on one
line is a head, parameters between bars, and a body. Where the statement and the head are whole and
do not hold the word that is looked for, both forms are taken apart again into the parts they were
put together from, and whatever condition is found in a text, nothing of the text is lost
(`oneLine_forms`).

The search tries the gaps from left to right. A gap of the statement that is found acceptable would
have the word behind it, so the gap in front of the keyword is the first one (`findSome?_gaps`).
-/

import Rolewright.Proofs.Recipe.Gaps
import Rolewright.Proofs.Recipe.Heredocs
import Rolewright.Proofs.Text.Parts

namespace Rolewright.Recipe

open Text

/-! ## What is open behind a text -/

/-- What a search for gaps has seen when a text has been read. -/
def GapScan.over (s : GapScan) (text : List Char) : GapScan :=
  text.foldl step s

namespace GapScan

@[simp]
theorem over_nil (s : GapScan) : s.over [] = s := rfl

@[simp]
theorem over_cons (s : GapScan) (c : Char) (cs : List Char) :
    s.over (c :: cs) = (s.step c).over cs := rfl

/-- A backslash escapes something only inside a quote. -/
def IsProper (s : GapScan) : Prop :=
  s.quote = none → s.escaped = false

theorem IsProper.step {s : GapScan} (proper : s.IsProper) (c : Char) : (s.step c).IsProper := by
  unfold IsProper GapScan.step at *
  cases quote : s.quote with
  | none =>
      have plain := proper quote
      dsimp only
      split_ifs <;> simp [plain]
  | some q =>
      dsimp only
      split_ifs with escaped <;> simp [quote, escaped]

theorem IsProper.over {s : GapScan} (proper : s.IsProper) (text : List Char) :
    (s.over text).IsProper := by
  induction text generalizing s with
  | nil => exact proper
  | cons c cs ih => exact ih (proper.step c)

/-- Where a gap counts the search stands as it did at first. -/
theorem over_start_eq {text : List Char} (top : (start.over text).atTop = true) :
    start.over text = start := by
  have proper : (start.over text).IsProper := IsProper.over (fun _ => rfl) text
  obtain ⟨quote, depth⟩ := (Bool.and_eq_true _ _).mp top
  have quote := Option.isNone_iff_eq_none.mp quote
  have plain := proper quote
  have depth := beq_iff_eq.mp depth
  cases seen : start.over text
  simp_all [start]

end GapScan

/-! ## The gaps of a text -/

section Gaps

variable {text more word : List Char} {gap : Gap}

/-- A gap is a gap character with nothing open before it. -/
theorem exists_eq_of_mem_gapsFrom {s : GapScan} {read : List Char}
    (member : gap ∈ gapsFrom s read text) :
    ∃ front c, gap.before = read.reverse ++ front ∧ text = front ++ c :: gap.after ∧
      (s.over front).atTop = true ∧ isGapChar c = true := by
  induction text generalizing s read with
  | nil => cases member
  | cons c cs ih =>
      have later (member : gap ∈ gapsFrom (s.step c) (c :: read) cs) :
          ∃ front d, gap.before = read.reverse ++ front ∧ c :: cs = front ++ d :: gap.after ∧
            (s.over front).atTop = true ∧ isGapChar d = true := by
        obtain ⟨front, d, before, split, top, blank⟩ := ih member
        refine ⟨c :: front, d, ?_, by rw [split, List.cons_append], top, blank⟩
        rw [before, List.reverse_cons, List.append_assoc, List.singleton_append]
      unfold gapsFrom at member
      dsimp only at member
      split at member
      · rename_i counts
        rcases List.mem_cons.mp member with rfl | member
        · obtain ⟨top, blank⟩ := (Bool.and_eq_true _ _).mp counts
          exact ⟨[], c, (List.append_nil _).symm, rfl, top, blank⟩
        · exact later member
      · exact later member

theorem exists_eq_of_mem_gaps (member : gap ∈ gaps text) :
    ∃ c, text = gap.before ++ c :: gap.after ∧ (GapScan.start.over gap.before).atTop = true ∧
      isGapChar c = true := by
  obtain ⟨front, c, before, split, top, blank⟩ := exists_eq_of_mem_gapsFrom member
  obtain rfl : gap.before = front := before
  exact ⟨c, split, top, blank⟩

/-- The gaps of a longer text are those of its first part, and then the later ones. -/
theorem gapsFrom_append (s : GapScan) (read text more : List Char) :
    gapsFrom s read (text ++ more) =
      (gapsFrom s read text).map (fun gap => ⟨gap.before, gap.after ++ more⟩) ++
        gapsFrom (s.over text) (text.reverse ++ read) more := by
  induction text generalizing s read with
  | nil => rfl
  | cons c cs ih =>
      simp only [List.cons_append, gapsFrom, ih, GapScan.over_cons, List.reverse_cons,
        List.append_assoc, List.nil_append]
      split <;> rfl

/-- Where nothing is open a gap character makes a gap. -/
theorem mem_gaps {before after : List Char} {c : Char}
    (top : (GapScan.start.over before).atTop = true) (blank : isGapChar c = true) :
    ⟨before, after⟩ ∈ gaps (before ++ c :: after) := by
  rw [gaps, gapsFrom_append, List.append_nil]
  apply List.mem_append_right
  rw [gapsFrom, top, blank, List.reverse_reverse]
  exact .head _

/-! ## Words behind a gap -/

/-- Somewhere outside quotes and brackets the word stands behind a blank or a tab, and either
nothing follows it or a character that may. -/
def HasWord (mayFollow : Char → Bool) (word text : List Char) : Prop :=
  ∃ before c after, text = before ++ c :: (word ++ after) ∧
    (GapScan.start.over before).atTop = true ∧ isGapChar c = true ∧
    after.head?.all mayFollow = true

/-- Such a word is one that stands behind a gap. -/
theorem hasWord_iff {mayFollow : Char → Bool} :
    HasWord mayFollow word text ↔
      ∃ gap ∈ gaps text, (afterPrefix? word gap.after).any (·.head?.all mayFollow) = true := by
  constructor
  · rintro ⟨before, c, after, rfl, top, blank, follows⟩
    refine ⟨⟨before, word ++ after⟩, mem_gaps top blank, ?_⟩
    rw [afterPrefix?_append]
    exact follows
  · rintro ⟨gap, member, begins⟩
    obtain ⟨c, split, top, blank⟩ := exists_eq_of_mem_gaps member
    obtain ⟨after, found, follows⟩ := (Option.any_eq_true _ _).mp begins
    refine ⟨gap.before, c, after, ?_, top, blank, follows⟩
    rw [split, ← List.isPrefixOf?_eq_some_iff_append_eq.mp found]

instance (mayFollow : Char → Bool) (word text : List Char) :
    Decidable (HasWord mayFollow word text) :=
  decidable_of_iff _ hasWord_iff.symm

/-- Trimming takes nothing off a text only if it takes nothing off at either end. -/
theorem isSolid_of_trim_eq (some : text ≠ []) (trimmed : trim text = text) : IsSolid text := by
  have start : trimStart text = text := by
    apply (suffix_trimStart text).eq_of_length_le
    calc text.length = (trim text).length := by rw [trimmed]
      _ ≤ (trimStart text).length := length_trimEnd_le _
  have ending : trimEnd text = text := by rwa [trim, start] at trimmed
  have solid {cs : List Char} (whole : trimStart cs = cs) (some : cs ≠ []) :
      cs.head?.any (fun c => !isBlank c) = true := by
    have first := List.head?_dropWhile_not isBlank cs
    rw [← trimStart, whole] at first
    cases cs with
    | nil => exact absurd rfl some
    | cons c cs => simpa using first
  refine ⟨solid start some, ?_⟩
  rw [← List.head?_reverse]
  apply solid
  · rw [trimStart, ← List.reverse_reverse (List.dropWhile _ _), ← trimEnd, ending]
  · simpa using some

/-- A text with nothing around it that could be trimmed, and in which nothing is left open. -/
structure IsWhole (text : List Char) : Prop where
  some : text ≠ []
  trimmed : trim text = text
  closed : (GapScan.start.over text).atTop = true

theorem IsWhole.solid (whole : IsWhole text) : IsSolid text :=
  isSolid_of_trim_eq whole.some whole.trimmed

/-- What a gap of a text has behind it, with a blank and more after that, begins with the word only
if the text has the word there. -/
theorem hasWord_of_afterPrefix? {mayFollow : Char → Bool} {rest : List Char}
    (member : gap ∈ gaps text) (unbroken : ' ' ∉ word)
    (found : afterPrefix? word (gap.after ++ ' ' :: more) = some rest)
    (follows : rest.head?.any mayFollow = true) : HasWord mayFollow word text := by
  obtain ⟨c, split, top, blank⟩ := exists_eq_of_mem_gaps member
  have joined : word ++ rest = gap.after ++ ' ' :: more :=
    List.isPrefixOf?_eq_some_iff_append_eq.mp found
  -- A word that reached over the end of the text would hold the blank behind it.
  obtain ⟨others, longer, left⟩ := exists_append_of_not_mem joined unbroken
  refine ⟨gap.before, c, others, by rw [split, longer], top, blank, ?_⟩
  cases others with
  | nil => rfl
  | cons d ds =>
      rw [left] at follows
      exact follows

/-- The first gap that is acceptable is the one behind a whole text, if none inside it is. -/
theorem findSome?_gaps {α : Type} {find : Gap → Option α} {found : α} (whole : IsWhole text)
    (hidden : ∀ gap ∈ gaps text, find ⟨gap.before, gap.after ++ ' ' :: more⟩ = none)
    (behind : find ⟨text, more⟩ = some found) :
    (gaps (text ++ ' ' :: more)).findSome? find = some found := by
  have none : ((gaps text).map fun gap => ⟨gap.before, gap.after ++ ' ' :: more⟩).findSome? find =
      none := by
    rw [List.findSome?_map, List.findSome?_eq_none_iff]
    exact hidden
  rw [gaps, gapsFrom_append, ← gaps, List.findSome?_append, none,
    GapScan.over_start_eq whole.closed, gapsFrom_blank, List.findSome?_cons, List.append_nil,
    List.reverse_reverse, behind]
  rfl

end Gaps

/-! ## Conditions -/

section Conditions

variable {text statement head condition : List Char}

theorem afterKeyword?_eq_some_iff {keyword code rest : List Char} :
    afterKeyword? keyword code = some rest ↔
      afterPrefix? keyword code = some rest ∧ rest.head?.any isGapChar = true := by
  unfold afterKeyword?
  cases afterPrefix? keyword code with
  | none => simp
  | some tail =>
      simp only [Option.some.injEq, Option.ite_none_right_eq_some]
      constructor
      · rintro ⟨follows, rfl⟩
        exact ⟨rfl, follows⟩
      · rintro ⟨rfl, follows⟩
        exact ⟨follows, rfl⟩

/-- A condition that is put behind a statement is found there. -/
theorem splitModifier_joined {negated : Bool} (whole : IsWhole statement)
    (plain : ∀ negated, ¬ HasWord isGapChar (Modifier.keyword negated) statement)
    (complete : endsWithOperator statement = false) (some : condition ≠ [])
    (trimmed : trim condition = condition) :
    splitModifier (statement ++ ' ' :: (Modifier.keyword negated ++ ' ' :: condition)) =
      (statement, .some ⟨negated, condition⟩) := by
  have found : (gaps (statement ++ ' ' :: (Modifier.keyword negated ++ ' ' :: condition))).findSome?
      Gap.split? = .some (statement, ⟨negated, condition⟩) := by
    apply findSome?_gaps whole
    · intro gap member
      apply Gap.split?_eq_none
      intro other
      rw [Option.eq_none_iff_forall_ne_some]
      intro rest begins
      obtain ⟨found, follows⟩ := afterKeyword?_eq_some_iff.mp begins
      have unbroken : ' ' ∉ Modifier.keyword other := by cases other <;> decide
      exact plain other (hasWord_of_afterPrefix? member unbroken found follows)
    · exact Gap.split?_keyword whole.solid complete (isSolid_of_trim_eq some trimmed) negated
  rw [splitModifier_eq, found]
  rfl

theorem exists_gap_of_splitModifier {m : Modifier} (found : splitModifier text = (head, some m)) :
    ∃ gap ∈ gaps text, gap.modifier? m.negated = some (head, m) := by
  have searched : (gaps text).findSome? Gap.split? = some (head, m) := by
    rw [splitModifier_eq] at found
    cases searched : (gaps text).findSome? Gap.split? with
    | none => simp [searched] at found
    | some split =>
        rw [searched] at found
        obtain ⟨rfl, same⟩ := Prod.mk.inj found
        rw [← Option.some.inj same]
  obtain ⟨gap, member, split⟩ := List.exists_of_findSome?_eq_some searched
  have known {negated : Bool} (found : gap.modifier? negated = some (head, m)) :
      m.negated = negated := by
    obtain ⟨rest, -, read⟩ := Option.bind_eq_some_iff.mp found
    dsimp only at read
    split at read
    · cases read
    · cases read
      rfl
  refine ⟨gap, member, ?_⟩
  rcases Option.or_eq_some_iff.mp split with found | ⟨-, found⟩
  · rwa [known found]
  · rwa [known found]

/-- What separates a condition from its statement, as it stands in the text. -/
structure Joins (text head : List Char) (m : Modifier) (before between after : List Char) :
    Prop where
  text : text = head ++ (before ++ (Modifier.keyword m.negated ++
    (between ++ (m.condition ++ after))))
  blank : isBlankText before = true ∧ isBlankText between = true ∧ isBlankText after = true
  apart : before ≠ [] ∧ between ≠ []

/-- A condition that is found in a text is joined to its statement there. -/
theorem exists_joins_of_splitModifier {m : Modifier}
    (found : splitModifier text = (head, some m)) :
    ∃ before between after, Joins text head m before between after := by
  obtain ⟨gap, member, split⟩ := exists_gap_of_splitModifier found
  obtain ⟨c, whole, -, blank⟩ := exists_eq_of_mem_gaps member
  rw [Gap.modifier?, ← Modifier.keyword] at split
  obtain ⟨rest, begins, split⟩ := Option.bind_eq_some_iff.mp split
  obtain ⟨here, follows⟩ := afterKeyword?_eq_some_iff.mp begins
  have joined : Modifier.keyword m.negated ++ rest = gap.after :=
    List.isPrefixOf?_eq_some_iff_append_eq.mp here
  obtain ⟨rfl, condition, nonempty⟩ :
      trimEnd gap.before = head ∧ trim rest = m.condition ∧ trim rest ≠ [] := by
    dsimp only at split
    split at split
    · cases split
    · rename_i some
      obtain ⟨same, modifier⟩ := Prod.mk.inj (Option.some.inj split)
      exact ⟨same, congrArg Modifier.condition modifier, by simp_all⟩
  obtain ⟨before, headBlank, headSplit⟩ := exists_blanks_behind gap.before
  obtain ⟨between, after, leads, tails, around⟩ := exists_blanks_around rest
  refine ⟨before ++ [c], between, after, ?_, ⟨?_, leads, tails⟩, by simp, ?_⟩
  · rw [whole, ← joined, ← condition]
    nth_rewrite 1 [headSplit, around]
    simp
  · rw [isBlankText, List.all_append, ← isBlankText, headBlank]
    simp [isBlank_of_isGapChar blank]
  · -- The character behind the keyword is blank, and a condition does not begin with a blank.
    rintro rfl
    rw [List.nil_append] at around
    obtain ⟨d, ds, first⟩ := List.exists_cons_of_ne_nil nonempty
    have solid : isBlank d = false := by
      obtain ⟨others, longer⟩ := prefix_trimEnd (trimStart rest)
      have opens : (trimStart rest).head? = some d := by
        rw [← longer, ← trim, first, List.cons_append, List.head?_cons]
      exact isBlank_of_head?_trimStart opens
    rw [around, first, List.cons_append, List.head?_cons, Option.any_some,
      isGapChar_of_solid solid] at follows
    exact Bool.false_ne_true follows

end Conditions

/-! ## Blocks -/

section Blocks

variable {head params body : List Char}

/-- The characters that may follow the word `do` where a block begins. -/
def mayFollowDo (c : Char) : Bool :=
  isGapChar c || c == ';' || c == '|'

/-- A block on one line, with these parameters. -/
def inlineWithParams (head params body : List Char) : List Char :=
  head ++ ' ' :: ("do |".toList ++ (params ++ '|' :: ' ' :: (body ++ ' ' :: "end".toList)))

/-- The block is found behind its head. -/
theorem findSome?_blockStart_joined (whole : IsWhole head)
    (plain : ¬ HasWord mayFollowDo "do".toList head) (rest : List Char) :
    (gaps (head ++ ' ' :: ("do |".toList ++ rest))).findSome? Gap.blockStart? =
      some (head, ' ' :: '|' :: rest) := by
  apply findSome?_gaps whole
  · intro gap member
    unfold Gap.blockStart?
    split
    · rename_i after found
      dsimp only
      split
      · rename_i counts
        obtain ⟨follows, -⟩ := (Bool.and_eq_true _ _).mp counts
        exact absurd (hasWord_of_afterPrefix? member (by decide) found follows) plain
      · rfl
    · rfl
  · have after : afterPrefix? "do".toList ("do |".toList ++ rest) = some (' ' :: '|' :: rest) := rfl
    rw [Gap.blockStart?, after]
    simp [trimEnd_of_solid whole.solid.last, whole.some, isGapChar]

theorem splitInlineBlock?_joined (whole : IsWhole head)
    (plain : ¬ HasWord mayFollowDo "do".toList head) (barless : '|' ∉ params)
    (trimmed : trim params = params) (solid : IsSolid body) (leading : body.head? ≠ some ';')
    (trailing : body.getLast? ≠ some ';') :
    splitInlineBlock? (inlineWithParams head params body) = some ⟨head, some params, body⟩ := by
  have front : inlineWithParams head params body =
      head ++ ' ' :: ("do |".toList ++ (params ++ '|' :: ' ' :: body)) ++ [' '] ++
        "end".toList := by
    simp [inlineWithParams]
  have ends : beforeSuffix? "end".toList (inlineWithParams head params body) =
      some (head ++ ' ' :: ("do |".toList ++ (params ++ '|' :: ' ' :: body)) ++ [' ']) :=
    List.isSuffixOf?_eq_some_iff_append_eq.mpr front.symm
  have begins := findSome?_blockStart_joined whole plain
    (params ++ '|' :: ' ' :: (body ++ ' ' :: "end".toList))
  rw [← inlineWithParams] at begins
  have bars : blockParams? (trimStart (' ' :: '|' ::
      (params ++ '|' :: ' ' :: (body ++ ' ' :: "end".toList)))) =
      some (some params, ' ' :: (body ++ ' ' :: "end".toList)) := by
    have split := splitAtFirst?_append barless [] (' ' :: (body ++ ' ' :: "end".toList))
    change (splitAtFirst? ['|']
      (params ++ (['|'] ++ ' ' :: (body ++ ' ' :: "end".toList)))).map _ = _
    rw [split, Option.map_some]
    dsimp only
    rw [trimmed]
  have tail : IsSolid (body ++ ' ' :: "end".toList) := by
    refine ⟨?_, by rw [List.getLast?_append]; rfl⟩
    rw [List.head?_append_of_ne_nil _ (List.isEmpty_eq_false_iff.mp solid.isEmpty_eq)]
    exact solid.first
  have inner : trim (' ' :: (body ++ ' ' :: "end".toList)) = body ++ ' ' :: "end".toList :=
    tail.trim_indented 1
  have inside : beforeSuffix? "end".toList (body ++ ' ' :: "end".toList) = some (body ++ [' ']) :=
    List.isSuffixOf?_eq_some_iff_append_eq.mpr (by simp)
  rw [splitInlineBlock?, ends]
  simp only [Option.bind_eq_bind, Option.bind_some, List.getLast?_concat]
  rw [if_neg (by decide), begins]
  simp only [Option.bind_some, bars, inner, inside, solid.trim_concat,
    trimBoth_semicolon leading trailing, solid.trim_eq]
  rfl

end Blocks

/-! ## Both forms -/

/-- What is put together on one line is taken apart again. A condition is found behind every whole
and complete statement in which neither keyword is a word; whatever condition is found in a text,
it is joined to its statement there; and of a block, the head, the parameters and the body are found
as they are. -/
theorem oneLine_forms :
    (∀ (statement condition : List Char) (negated : Bool), IsWhole statement →
      (∀ negated, ¬ HasWord isGapChar (Modifier.keyword negated) statement) →
      endsWithOperator statement = false → condition ≠ [] → trim condition = condition →
      splitModifier (statement ++ ' ' :: (Modifier.keyword negated ++ ' ' :: condition)) =
        (statement, some ⟨negated, condition⟩)) ∧
    (∀ (text head : List Char) (m : Modifier), splitModifier text = (head, some m) →
      ∃ before between after, Joins text head m before between after) ∧
    ∀ head params body : List Char, IsWhole head → ¬ HasWord mayFollowDo "do".toList head →
      '|' ∉ params → trim params = params → body ≠ [] → trim body = body →
      body.head? ≠ some ';' → body.getLast? ≠ some ';' →
      splitInlineBlock? (inlineWithParams head params body) = some ⟨head, some params, body⟩ := by
  refine ⟨?_, ?_, ?_⟩
  · intro statement condition negated whole plain complete nonempty trimmed
    exact splitModifier_joined whole plain complete nonempty trimmed
  · intro text head m found
    exact exists_joins_of_splitModifier found
  · intro head params body whole plain barless trimmed nonempty trimmed' leading trailing
    exact splitInlineBlock?_joined whole plain barless trimmed
      (isSolid_of_trim_eq nonempty trimmed') leading trailing

/-- Forms whose parts hold the words that are looked for: in quotes, in brackets and inside longer
words, and behind the place that is meant. -/
theorem oneLine_forms_quoting :
    splitModifier "notify 'a if b', [x if y] if z unless 'w'".toList =
        ("notify 'a if b', [x if y]".toList, some ⟨false, "z unless 'w'".toList⟩) ∧
      (∃ before between after,
        Joins "a  unless\tb ".toList "a".toList ⟨true, "b".toList⟩ before between after) ∧
      splitInlineBlock? "dot.each 'do' do |x, y| p x; [y].each do |z| p z end end".toList =
        some ⟨"dot.each 'do'".toList, some "x, y".toList,
          "p x; [y].each do |z| p z end".toList⟩ := by
  obtain ⟨behind, around, inline⟩ := oneLine_forms
  refine ⟨?_, ?_, ?_⟩
  · exact behind "notify 'a if b', [x if y]".toList "z unless 'w'".toList false
      ⟨by decide, by decide, by decide⟩ (by decide) (by decide) (by decide) (by decide)
  · exact around "a  unless\tb ".toList "a".toList ⟨true, "b".toList⟩ (by decide)
  · exact inline "dot.each 'do'".toList "x, y".toList "p x; [y].each do |z| p z end".toList
      ⟨by decide, by decide, by decide⟩ (by decide) (by decide) (by decide) (by decide) (by decide)
      (by decide) (by decide)

end Rolewright.Recipe
