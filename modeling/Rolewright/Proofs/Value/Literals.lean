/-
# Literals that stand for themselves

A text in single quotes is read as that text, whatever it holds but quotes and backslashes, and a
word behind a colon is read as that symbol (`parse_quoted`, `parse_symbol`). Neither is cut at a
separator (`isPiece_quoted`, `isPiece_of_isFlat`).
-/

import Rolewright.Proofs.Value.Balance

namespace Rolewright.Value

open Recipe Text

variable {sep : Char} {code rest text word : List Char}

/-! ## Pieces -/

/-- A character of a kind that has no quotes and no brackets leaves the nesting as it is. -/
theorem isStructural_of_kind {p : Char → Bool} {c : Char} (kind : p c = true)
    (others : Scan.marks.any p = false) : Nesting.isStructural c = false := by
  obtain ⟨quotes, opens, closes⟩ := Scan.unmarked_of_kind kind others
  have quotes : Nesting.quotes c = false := (Bool.or_eq_false_iff.mp quotes).1
  have opens : Nesting.opens c = false := opens
  have closes : Nesting.closes c = false := closes
  rw [Nesting.isStructural, quotes, opens, closes]
  rfl

theorem isPiece_of_isFlat (flat : IsFlat code) (plain : sep ∉ code) : IsPiece sep code :=
  isPiece_of_uncut <| .of_all rfl fun c member =>
    ⟨isStructural_of_kind (flat c member) (by decide), fun _ same => plain (same ▸ member)⟩

/-- A text in single quotes is cut nowhere. -/
theorem uncut_quoted (quotable : IsQuotable text) :
    Uncut sep .start ('\'' :: (text ++ ['\''])) .start :=
  (IsEscaped.of_isPlainWithin quotable.isPlainWithin).uncut_quoted rfl 0

theorem isPiece_quoted (quotable : IsQuotable text) : IsPiece sep ('\'' :: (text ++ ['\''])) :=
  isPiece_of_uncut (uncut_quoted quotable)

/-! ## Parts -/

theorem split_blank (other : sep ≠ ' ') (rest : List Char) :
    split sep (' ' :: rest) = split sep rest := by
  have blank : IsPiece sep [' '] :=
    isPiece_of_isFlat (by simp [IsFlat, isFlatChar]) (by simpa using other)
  have pieces_eq := blank rest
  rw [List.singleton_append] at pieces_eq
  rw [split, split, pieces_eq]
  cases pieces sep .start rest <;> rfl

/-- A part with a separator and a blank behind it comes before the others. -/
theorem split_append {part : List Char} (other : sep ≠ ' ')
    (plain : Nesting.isStructural sep = false) (whole : IsPiece sep part) (solid : IsSolid part)
    (rest : List Char) : split sep (part ++ sep :: ' ' :: rest) = part :: split sep rest := by
  have pieces_eq := whole (sep :: ' ' :: rest)
  have cut : pieces sep .start (sep :: ' ' :: rest) = [] :: pieces sep .start (' ' :: rest) := by
    rw [pieces, plain]
    simp [Nesting.atTop, Nesting.start]
  rw [← split_blank other rest, split, split, pieces_eq, cut]
  simp [prepend, solid.trim_eq, solid.isEmpty_eq]

theorem split_singleton {part : List Char} (whole : IsPiece sep part) (solid : IsSolid part) :
    split sep part = [part] := by
  have pieces_eq := whole []
  rw [List.append_nil] at pieces_eq
  rw [split, pieces_eq]
  simp [prepend, pieces, solid.trim_eq, solid.isEmpty_eq]

/-- A text in single quotes is one part. -/
theorem split_quoted (quotable : IsQuotable text) :
    split sep ('\'' :: (text ++ ['\''])) = ['\'' :: (text ++ ['\''])] :=
  split_singleton (isPiece_quoted quotable) (isSolid_quoted text)

/-! ## Literals -/

/-- Between quotes a text stands for itself. -/
theorem unquote?_append {quote : Char} (plain : IsPlainWithin quote text) :
    unquote? quote (text ++ [quote]) = some text := by
  induction text with
  | nil => simp [unquote?, plain.ne_backslash]
  | cons c cs ih =>
      obtain ⟨⟨here, backslash, -⟩, inside⟩ := plain.cons
      simp [unquote?, here, backslash, ih inside]

/-- What is no pair and has no separator is one expression. -/
theorem expressionWith_of_single {shorter : List Char → Value} (parts : split ',' text = [text])
    (single : pairWith? shorter text = none) : expressionWith shorter text = shorter text := by
  rw [expressionWith, parts]
  simp [pairsWith?, single]

/-- Behind a text without quotes the first quote is the last one too, so no colon follows it. -/
theorem colonKey?_of_not_mem (plain : '\'' ∉ text) :
    colonKey? ('\'' :: (text ++ ['\''])) = none := by
  have inside : ∀ c ∈ text, (c != '\'') = true := fun c member =>
    bne_iff_ne.mpr fun same => plain (same ▸ member)
  rw [colonKey?, List.dropWhile_append_of_pos inside]
  rfl

theorem pairWith?_quoted (shorter : List Char → Value) (quotable : IsQuotable text) :
    pairWith? shorter ('\'' :: (text ++ ['\''])) = none :=
  pairWith?_of_uncut (uncut_quoted quotable) (colonKey?_of_not_mem quotable.quote) shorter

theorem enclosed?_eq_none {left right : Char} (other : code.head? ≠ some left) :
    enclosed? left right code = none := by
  cases code with
  | nil => rfl
  | cons c cs =>
      have ne : c ≠ left := fun same => other (congrArg some same)
      simp [enclosed?, ne]

/-- A literal is read in one layer. -/
theorem singleWithin_of_leaf? {value : Value} (opening : code.head? ≠ some '(')
    (leaf : leaf? code = some value) (layers : Nat) :
    singleWithin (layers + 1) code = value := by
  rw [singleWithin, singleWith, enclosed?_eq_none opening, leaf]
  rfl

theorem leaf?_quoted (quotable : IsQuotable text) :
    leaf? ('\'' :: (text ++ ['\''])) = some (.str (String.ofList text)) := by
  simp [leaf?, stringLiteral?, quotedLiteral?, unquote?_append quotable.isPlainWithin]

/-- A text in single quotes denotes itself. -/
theorem parse_quoted (quotable : IsQuotable text) :
    parse ('\'' :: (text ++ ['\''])) = .str (String.ofList text) := by
  have solid := isSolid_quoted text
  rw [parse, solid.trim_eq, expressionWith_of_single (split_quoted quotable)
    (pairWith?_quoted _ quotable), single,
    singleWithin_of_leaf? (by simp) (leaf?_quoted quotable)]

theorem splitAtMark?_of_not_mem {c : Char} {mark : List Char} (plain : c ∉ text) (s : Nesting) :
    splitAtMark? (c :: mark) s text = none := by
  induction text generalizing s with
  | nil => rfl
  | cons d ds ih =>
      have later : c ∉ ds := fun member => plain (.tail _ member)
      have here : afterPrefix? (c :: mark) (d :: ds) = none :=
        afterPrefix?_cons_eq_none (fun same => plain (List.mem_of_mem_head? same)) mark
      rw [splitAtMark?, here, ih later]
      simp

/-- What is a symbol is no other literal. -/
theorem leaf?_of_symbol? (name : symbol? (':' :: code) = some text) :
    leaf? (':' :: code) = some (.sym (String.ofList text)) := by
  simp [leaf?, stringLiteral?, quotedLiteral?, wordList?, symbolLiteral?, name]

section Symbol

variable (inner : word.all isAsciiWord = true)

include inner

theorem not_mem_symbol {c : Char} (other : isAsciiWord c = false) (colon : c ≠ ':') :
    c ∉ ':' :: word := by
  simpa [colon] using not_mem_of_all inner other

theorem isSolid_symbol : IsSolid (':' :: word) := by
  refine ⟨rfl, ?_⟩
  rw [Option.any_eq_true]
  refine ⟨_, List.getLast?_eq_some_getLast (List.cons_ne_nil _ _), ?_⟩
  rcases List.mem_cons.mp (List.getLast_mem (List.cons_ne_nil ':' word)) with colon | member
  · rw [colon]
    rfl
  · rw [isBlank_of_isAsciiWord (List.all_eq_true.mp inner _ member)]
    rfl

theorem isPiece_symbol : IsPiece ',' (':' :: word) :=
  isPiece_of_isFlat (List.forall_mem_cons.mpr ⟨by decide, isFlat_of_all inner⟩)
    (not_mem_symbol inner (by decide) (by decide))

/-- A word behind a colon is a symbol. -/
theorem parse_symbol (starts : word.head?.any isIdentStart = true) :
    parse (':' :: word) = .sym (String.ofList word) := by
  have solid := isSolid_symbol inner
  have bare : pairWith? Value.single (':' :: word) = none := by
    rw [pairWith?, splitAtMark?_of_not_mem (not_mem_symbol inner (by decide) (by decide))]
    rfl
  have name : symbol? (':' :: word) = some word := by
    rw [symbol?, takeIdent_whole starts inner]
  rw [parse, solid.trim_eq, expressionWith_of_single (split_singleton (isPiece_symbol inner) solid)
    bare, single, singleWithin_of_leaf? (by simp) (leaf?_of_symbol? name)]

end Symbol

end Rolewright.Value
