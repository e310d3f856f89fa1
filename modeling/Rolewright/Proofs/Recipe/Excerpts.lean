/-
# What is read off a statement stands in it

The parts into which a statement is taken are consecutive characters of it: the statement before a
condition, the head and the statements of a block on one line, the head of a call, and the type
that a resource is written with.
-/

import Mathlib.Data.List.Infix
import Rolewright.Recipe.Block
import Rolewright.Recipe.Statement

namespace Rolewright

/-! ## Trimming and cutting -/

namespace Text

variable {mark cs before rest : List Char}

theorem suffix_trimStart (cs : List Char) : trimStart cs <:+ cs :=
  List.dropWhile_suffix _

theorem prefix_trimEnd (cs : List Char) : trimEnd cs <+: cs := by
  have suffix : cs.reverse.dropWhile isBlank <:+ cs.reverse := List.dropWhile_suffix _
  rwa [← List.reverse_prefix, List.reverse_reverse] at suffix

theorem infix_trim (cs : List Char) : trim cs <:+: cs :=
  (prefix_trimEnd _).isInfix.trans (suffix_trimStart cs).isInfix

theorem infix_trimBoth (p : Char → Bool) (cs : List Char) : trimBoth p cs <:+: cs := by
  have start : cs.dropWhile p <:+ cs := List.dropWhile_suffix _
  have ending : (cs.dropWhile p).reverse.dropWhile p <:+ (cs.dropWhile p).reverse :=
    List.dropWhile_suffix _
  rw [← List.reverse_prefix, List.reverse_reverse] at ending
  exact ending.isInfix.trans start.isInfix

/-- What stands behind a mark is an end of the text, -/
theorem suffix_of_afterPrefix? (found : afterPrefix? mark cs = some rest) : rest <:+ cs :=
  ⟨mark, List.isPrefixOf?_eq_some_iff_append_eq.mp found⟩

/-- a word that is taken is a beginning of it, -/
theorem prefix_of_takeIdent {start inner : Char → Bool} {word : List Char}
    (found : takeIdent start inner cs = some (word, rest)) : word <+: cs := by
  obtain ⟨c, cs, rfl, -, rfl, -⟩ := exists_of_takeIdent found
  exact List.cons_prefix_cons.mpr ⟨rfl, List.takeWhile_prefix _⟩

/-- and what stands behind the first mark is an end of it. -/
theorem suffix_of_splitAtFirst? (found : splitAtFirst? mark cs = some (before, rest)) :
    rest <:+ cs := by
  induction cs generalizing before with
  | nil =>
      unfold splitAtFirst? at found
      split at found
      · cases found
        exact List.suffix_rfl
      · cases found
  | cons c cs ih =>
      unfold splitAtFirst? at found
      split at found
      · rename_i after here
        cases found
        exact suffix_of_afterPrefix? here
      · obtain ⟨⟨before, rest⟩, later, same⟩ := Option.map_eq_some_iff.mp found
        cases same
        exact (ih later).trans (List.suffix_cons c cs)

end Text

open Text

/-! ## Parts between separators -/

/-- The first piece begins the text, and all stand in it. -/
theorem Value.exists_pieces_eq_cons (sep : Char) (s : Value.Nesting) (cs : List Char) :
    ∃ first rest, Value.pieces sep s cs = first :: rest ∧ first <+: cs ∧
      ∀ piece ∈ rest, piece <:+: cs := by
  induction cs generalizing s with
  | nil => exact ⟨[], [], rfl, List.prefix_rfl, fun _ member => nomatch member⟩
  | cons c cs ih =>
      unfold pieces
      split
      · obtain ⟨first, rest, pieces_eq, here, others⟩ := ih s
        refine ⟨[], first :: rest, by rw [pieces_eq], List.nil_prefix, ?_⟩
        intro piece member
        rcases List.mem_cons.mp member with rfl | later
        · exact here.isInfix.trans (List.suffix_cons c cs).isInfix
        · exact (others piece later).trans (List.suffix_cons c cs).isInfix
      · obtain ⟨first, rest, pieces_eq, here, others⟩ := ih (s.step c)
        rw [pieces_eq]
        refine ⟨c :: first, rest, rfl, List.cons_prefix_cons.mpr ⟨rfl, here⟩, ?_⟩
        intro piece member
        exact (others piece member).trans (List.suffix_cons c cs).isInfix

/-- Each piece between separators stands in the text, -/
theorem Value.infix_of_mem_pieces {sep : Char} {s : Value.Nesting} {cs piece : List Char}
    (member : piece ∈ Value.pieces sep s cs) : piece <:+: cs := by
  obtain ⟨first, rest, pieces_eq, here, others⟩ := exists_pieces_eq_cons sep s cs
  rw [pieces_eq] at member
  rcases List.mem_cons.mp member with rfl | later
  · exact here.isInfix
  · exact others piece later

/-- and so does each part without the blanks around it. -/
theorem Value.infix_of_mem_split {sep : Char} {cs part : List Char}
    (member : part ∈ Value.split sep cs) : part <:+: cs := by
  obtain ⟨piece, among, rfl⟩ := List.mem_map.mp (List.mem_filter.mp member).1
  exact (infix_trim piece).trans (infix_of_mem_pieces among)

namespace Recipe

variable {text : List Char}

/-! ## One-line forms -/

/-- Around a gap stand a beginning and an end of the text. -/
theorem of_mem_gapsFrom {s : GapScan} {read : List Char} {gap : Gap}
    (member : gap ∈ gapsFrom s read text) :
    gap.before <+: read.reverse ++ text ∧ gap.after <:+ text := by
  induction text generalizing s read with
  | nil => cases member
  | cons c cs ih =>
      have later (member : gap ∈ gapsFrom (s.step c) (c :: read) cs) :
          gap.before <+: read.reverse ++ c :: cs ∧ gap.after <:+ c :: cs := by
        obtain ⟨before, after⟩ := ih member
        rw [List.reverse_cons, List.append_assoc] at before
        exact ⟨before, after.trans (List.suffix_cons c cs)⟩
      unfold gapsFrom at member
      dsimp only at member
      split at member
      · rcases List.mem_cons.mp member with rfl | member
        · exact ⟨List.prefix_append _ _, List.suffix_cons c cs⟩
        · exact later member
      · exact later member

/-- The statement before a condition begins the text. -/
theorem prefix_splitModifier (text : List Char) : (splitModifier text).1 <+: text := by
  unfold splitModifier
  split
  · rename_i head modifier found
    obtain ⟨gap, member, found⟩ := List.exists_of_findSome?_eq_some found
    have before : gap.before <+: text := (of_mem_gapsFrom member).1
    have cut {negated : Bool} (found : gap.modifier? negated = some (head, modifier)) :
        head <+: text := by
      unfold Gap.modifier? at found
      obtain ⟨rest, _, found⟩ := Option.bind_eq_some_iff.mp found
      dsimp only at found
      split at found
      · cases found
      · cases found
        exact (prefix_trimEnd _).trans before
    rcases Option.or_eq_some_iff.mp found with first | ⟨_, second⟩
    · exact cut first
    · exact cut second
  · exact List.prefix_rfl

/-- What opens a block stands before a gap, and what it holds behind it. -/
theorem of_blockStart? {gap : Gap} {head rest : List Char}
    (found : gap.blockStart? = some (head, rest)) : head <+: gap.before ∧ rest <:+ gap.after := by
  unfold Gap.blockStart? at found
  split at found
  · rename_i after here
    dsimp only at found
    split at found
    · cases found
      exact ⟨prefix_trimEnd _, suffix_of_afterPrefix? here⟩
    · cases found
  · cases found

/-- What is left behind the parameters of a block is an end of the text. -/
theorem suffix_of_blockParams? {params : Option (List Char)} {rest : List Char}
    (found : blockParams? text = some (params, rest)) : rest <:+ text := by
  unfold blockParams? at found
  split at found
  · obtain ⟨⟨inside, after⟩, closed, same⟩ := Option.map_eq_some_iff.mp found
    cases same
    exact (suffix_of_splitAtFirst? closed).trans (List.suffix_cons _ _)
  · cases found
    exact List.suffix_rfl

/-- A block on one line begins with its head, and its statements stand before an `end`. -/
theorem parts_of_splitInlineBlock? {inline : InlineBlock}
    (found : splitInlineBlock? text = some inline) :
    inline.head <+: text ∧ ∃ rest body, rest <:+ text ∧ body ++ "end".toList = trim rest ∧
      inline.body <:+: body := by
  unfold splitInlineBlock? at found
  obtain ⟨inside, _, found⟩ := Option.bind_eq_some_iff.mp found
  dsimp only at found
  split at found
  · cases found
  · obtain ⟨⟨head, rest⟩, start, found⟩ := Option.bind_eq_some_iff.mp found
    obtain ⟨⟨params, rest'⟩, bars, found⟩ := Option.bind_eq_some_iff.mp found
    obtain ⟨body, ending, found⟩ := Option.bind_eq_some_iff.mp found
    cases found
    obtain ⟨gap, member, start⟩ := List.exists_of_findSome?_eq_some start
    obtain ⟨before, after⟩ := of_mem_gapsFrom member
    obtain ⟨head_before, rest_after⟩ := of_blockStart? start
    refine ⟨head_before.trans before, rest', body, ?_,
      List.isSuffixOf?_eq_some_iff_append_eq.mp ending, ?_⟩
    · exact ((suffix_of_blockParams? bars).trans (suffix_trimStart rest)).trans
        (rest_after.trans after)
    · exact ((infix_trim _).trans (infix_trimBoth _ _)).trans (infix_trim body)

/-- The head and the statements of a block on one line stand in it. -/
theorem infix_of_splitInlineBlock? {inline : InlineBlock}
    (found : splitInlineBlock? text = some inline) :
    inline.head <:+: text ∧ inline.body <:+: text := by
  obtain ⟨head, rest, body, inside, ended, part⟩ := parts_of_splitInlineBlock? found
  have body_rest : body <:+: rest :=
    (List.prefix_append _ _).isInfix.trans (ended ▸ infix_trim rest)
  exact ⟨head.isInfix, part.trans (body_rest.trans inside.isInfix)⟩

/-- The `end` of a block on one line is not among its statements. -/
theorem length_body_lt {inline : InlineBlock} (found : splitInlineBlock? text = some inline) :
    inline.body.length < text.length := by
  obtain ⟨-, rest, body, inside, ended, part⟩ := parts_of_splitInlineBlock? found
  calc inline.body.length
      ≤ body.length := part.length_le
    _ < (body ++ "end".toList).length := by
        rw [List.length_append]
        exact Nat.lt_add_of_pos_right (by decide)
    _ = (trim rest).length := by rw [ended]
    _ ≤ rest.length := length_trim_le rest
    _ ≤ text.length := inside.length_le

/-! ## Heads -/

/-- The type of a resource is the identifier that its head begins with. -/
theorem takeIdent_of_resourceHeader? {type : String} {argument : List Char}
    (found : resourceHeader? text = some (type, argument)) :
    ∃ word rest, takeIdent isNameStart (fun c => c.isLower || c.isDigit || c == '_') text =
      some (word, rest) ∧ type = String.ofList word := by
  unfold resourceHeader? at found
  obtain ⟨⟨word, rest⟩, ident, found⟩ := Option.bind_eq_some_iff.mp found
  obtain ⟨inner, _, found⟩ := Option.bind_eq_some_iff.mp found
  dsimp only at found
  split at found
  · cases found
  · cases found
    exact ⟨word, rest, ident, rfl⟩

theorem type_prefix_of_resourceHeader? {type : String} {argument : List Char}
    (found : resourceHeader? text = some (type, argument)) : type.toList <+: text := by
  obtain ⟨word, rest, ident, rfl⟩ := takeIdent_of_resourceHeader? found
  rw [String.toList_ofList]
  exact prefix_of_takeIdent ident

theorem head_infix_of_blockHeader? {read head : List Char} {params : Option (List Char)}
    (found : blockHeader? read text = some (head, params)) : head <:+: read.reverse ++ text := by
  induction text generalizing read with
  | nil => cases found
  | cons c cs ih =>
      unfold blockHeader? at found
      dsimp only at found
      split at found
      · cases found
        exact (infix_trim _).trans (List.prefix_append _ _).isInfix
      · have later := ih found
        rwa [List.reverse_cons, List.append_assoc] at later

theorem ite_ne_of_ne {α : Type} {c : Prop} [Decidable c] {a b x : α} (first : a ≠ x)
    (second : b ≠ x) : (if c then a else b) ≠ x := by
  split
  · exact first
  · exact second

/-- A keyword opens no call. -/
theorem keywordRole?_ne_call {head : List Char} {params : Option (List Char)}
    {condition : List Char} :
    keywordRole? text ≠ some (.opens (.call head params) condition) := by
  unfold keywordRole?
  extract_lets word rest alone is
  refine ite_ne_of_ne (ite_ne_of_ne nofun ?ending) (ite_ne_of_ne (ite_ne_of_ne nofun ?choice) ?_)
  case ending =>
    split
    · exact ite_ne_of_ne nofun nofun
    · nofun
  case choice => split <;> nofun
  repeat' apply ite_ne_of_ne
  all_goals nofun

/-- The head of a call with a block stands in the line that opens it. -/
theorem head_infix_of_opens {head : List Char} {params : Option (List Char)}
    {condition : List Char} (opens : LineRole.ofText text = .opens (.call head params) condition) :
    head <:+: text := by
  unfold LineRole.ofText at opens
  split at opens
  · rename_i role found
    rw [opens] at found
    exact absurd found keywordRole?_ne_call
  · split at opens
    · rename_i kind found
      cases opens
      unfold callBlock? at found
      split at found
      · rename_i head' params' header
        split at found
        · cases found
        · cases found
          exact head_infix_of_blockHeader? header
      · cases found
    · split at opens <;> cases opens

end Recipe

end Rolewright
