/-
# Literals that hold no others

What a list or a map needs to know of the code of an item is the same for every kind of value
(`Spells`): it is cut nowhere, it is no pair, and every layer of the reader that is deep enough
reads it as that value. Here this is shown of strings, symbols, integers, words with a meaning,
local names and paths of node attributes. All but the strings are written in characters that no scan
takes notice of (`Spells.of_bare`).
-/

import Rolewright.Proofs.Value.Balance
import Rolewright.Proofs.Value.References

namespace Rolewright.Value

open Recipe Text

variable {code text word : List Char} {value : Value}

/-- Code of one expression, and the value that it is read as. -/
structure Spells (code : List Char) (value : Value) : Prop where
  solid : IsSolid code
  balanced : IsBalanced code
  uncut : ∀ sep, sep = ',' ∨ sep = '=' → Uncut sep .start code .start
  lineless : '\n' ∉ code
  pairless : ∀ shorter, pairWith? shorter code = none
  /-- There are as many layers as characters below the one that reads the code. -/
  reads : ∀ layers, code.length ≤ layers → singleWithin (layers + 1) code = value

theorem Spells.isPiece (spells : Spells code value) : IsPiece ',' code :=
  isPiece_of_uncut (spells.uncut ',' (.inl rfl))

/-- What is read as a value in every layer is read as that value. -/
theorem Spells.parse_eq (spells : Spells code value) : parse code = value := by
  rw [parse, spells.solid.trim_eq,
    expressionWith_of_single (split_singleton spells.isPiece spells.solid) (spells.pairless _),
    single, spells.reads _ (Nat.le_refl _)]

/-! ## Bare literals -/

/-- Characters of literals that are written without quotes and brackets. -/
def isBareChar (c : Char) : Bool :=
  isAtomChar c || c == '.' || c == '-'

theorem isBlank_of_isBareChar {c : Char} (bare : isBareChar c = true) : isBlank c = false := by
  simp only [isBareChar, Bool.or_eq_true, beq_iff_eq] at bare
  rcases bare with (atom | rfl) | rfl
  · exact isBlank_of_isAtomChar atom
  · rfl
  · rfl

theorem isStructural_of_isBareChar {c : Char} (bare : isBareChar c = true) :
    Nesting.isStructural c = false :=
  isStructural_of_kind bare (by decide)

theorem isBareChar_of_isAsciiWord {c : Char} (inner : isAsciiWord c = true) :
    isBareChar c = true := by
  simp [isBareChar, isAtomChar, inner]

theorem isBareChar_of_word (inner : word.all isAsciiWord = true) :
    ∀ c ∈ word, isBareChar c = true :=
  fun c member => isBareChar_of_isAsciiWord (List.all_eq_true.mp inner c member)

section Bare

variable (bare : ∀ c ∈ code, isBareChar c = true)

include bare

/-- Bare code has nothing to balance -/
theorem isBalanced_of_bare : IsBalanced code := by
  induction code with
  | nil => exact .nil
  | cons c cs ih =>
      obtain ⟨here, later⟩ := List.forall_mem_cons.mp bare
      exact .plain (isStructural_of_isBareChar here) (ih later)

/-- and nothing that cuts it. -/
theorem uncut_of_bare {sep : Char} (other : isBareChar sep = false) :
    Uncut sep .start code .start :=
  .of_all rfl fun c member =>
    ⟨isStructural_of_isBareChar (bare c member), fun _ => ne_of_kind (bare c member) other⟩

theorem isSolid_of_bare (some : code ≠ []) : IsSolid code where
  first := by
    rw [List.head?_eq_some_head some, Option.any_some,
      isBlank_of_isBareChar (bare _ (List.head_mem some))]
    rfl
  last := by
    rw [List.getLast?_eq_some_getLast some, Option.any_some,
      isBlank_of_isBareChar (bare _ (List.getLast_mem some))]
    rfl

/-- Of a bare literal only what it denotes is to be shown, and that it is no pair. -/
theorem Spells.of_bare (some : code ≠ [])
    (pairless : ∀ shorter, pairWith? shorter code = none)
    (reads : ∀ layers, code.length ≤ layers → singleWithin (layers + 1) code = value) :
    Spells code value where
  solid := isSolid_of_bare bare some
  balanced := isBalanced_of_bare bare
  uncut sep known := uncut_of_bare bare <| by
    rcases known with rfl | rfl <;> decide
  lineless member := ne_of_kind (bare _ member) (by decide) rfl
  pairless := pairless
  reads := reads

end Bare

/-! ## Leaves -/

/-- Code that opens like no other literal is a word with a meaning or a number. -/
theorem leaf?_cons {c : Char} (single : c ≠ '\'') (double : c ≠ '"') (percent : c ≠ '%')
    (colon : c ≠ ':') (cs : List Char) :
    leaf? (c :: cs) = (keyword? (c :: cs)).or (number? (c :: cs)) := by
  have string : stringLiteral? (c :: cs) = none := by
    simp [stringLiteral?, quotedLiteral?, single, double]
  have list : wordList? (c :: cs) = none := by
    unfold wordList?
    split
    · rename_i same
      exact absurd (List.cons.inj same).1 percent
    · rfl
  have symbol : symbolLiteral? (c :: cs) = none := by
    have name : symbol? (c :: cs) = none := by
      unfold symbol?
      split
      · rename_i same
        exact absurd (List.cons.inj same).1 colon
      · rfl
    unfold symbolLiteral?
    rw [name]
    dsimp only
    split
    · rename_i same
      exact absurd (List.cons.inj same).1 colon
    · rfl
  rw [leaf?, string, list, symbol]
  rfl

/-- The text as it is written between quotes. -/
def escaped (text : List Char) : List Char :=
  replaceChar '\'' ['\\', '\''] text

/-- A text is written in single quotes, with the quotes in it escaped. -/
theorem toList_source_str (text : String) :
    (source (.str text)).toList = '\'' :: (escaped text.toList ++ ['\'']) := by
  simp [source, quoted, escaped]

/-- Without a quote in it nothing is escaped. -/
theorem escaped_of_not_mem (plain : '\'' ∉ text) : escaped text = text := by
  have kept : ∀ c ∈ text, (if c = '\'' then ['\\', '\''] else [c]) = [c] := by
    intro c member
    refine if_neg ?_
    rintro rfl
    exact plain member
  rw [escaped, replaceChar, List.flatMap_congr kept, List.flatMap_singleton']

/-- A text in quotes is read as that text. -/
theorem spells_quoted (quotable : IsQuotable text) :
    Spells ('\'' :: (text ++ ['\''])) (.str (String.ofList text)) where
  solid := isSolid_quoted text
  balanced := .quoted rfl (.of_isPlainWithin quotable.isPlainWithin) .nil
  uncut _ _ := uncut_quoted quotable
  lineless := by simpa using quotable.lineFeed
  pairless shorter := pairWith?_quoted shorter quotable
  reads layers _ := singleWithin_of_leaf? (by simp) (leaf?_quoted quotable) layers

/-- A colon and a word, with a mark behind it or none, is read as a symbol. -/
theorem spells_symbol {mark : List Char} (starts : word.head?.any isIdentStart = true)
    (inner : word.all isAsciiWord = true) (marked : mark ∈ [[], ['?'], ['!']]) :
    Spells (':' :: (word ++ mark)) (.sym (String.ofList (word ++ mark))) := by
  have name : symbol? (':' :: (word ++ mark)) = some (word ++ mark) := by
    simp only [List.mem_cons, List.not_mem_nil, or_false] at marked
    rcases marked with rfl | rfl | rfl
    · rw [List.append_nil, symbol?, takeIdent_whole starts inner]
    · rw [symbol?, takeIdent_append starts inner (by decide)]
      rfl
    · rw [symbol?, takeIdent_append starts inner (by decide)]
      rfl
  have ends : mark.all isBareChar = true :=
    (by decide : ∀ mark ∈ [[], ['?'], ['!']], mark.all isBareChar = true) mark marked
  have bare : ∀ c ∈ ':' :: (word ++ mark), isBareChar c = true :=
    List.forall_mem_cons.mpr ⟨rfl, List.forall_mem_append.mpr
      ⟨isBareChar_of_word inner, List.all_eq_true.mp ends⟩⟩
  exact .of_bare bare (List.cons_ne_nil _ _) (pairWith?_of_uncut (uncut_of_bare bare rfl) rfl)
    fun layers _ => singleWithin_of_leaf? (by simp) (leaf?_of_symbol? name) layers

/-- A colon is looked for behind an identifier or a quoted text only. -/
theorem colonKey?_cons {c : Char} (single : c ≠ '\'') (double : c ≠ '"')
    (other : isIdentStart c = false) (cs : List Char) : colonKey? (c :: cs) = none := by
  unfold colonKey?
  split
  · rename_i same
    exact absurd (List.cons.inj same).1 single
  · rename_i same
    exact absurd (List.cons.inj same).1 double
  · simp [takeIdent, other]

/-! ## Words -/

/-- A word by itself is no key with a colon -/
theorem colonKey?_word (starts : word.head?.any isIdentStart = true)
    (inner : word.all isAsciiWord = true) : colonKey? word = none := by
  have whole := takeIdent_whole starts inner
  unfold colonKey?
  split
  · cases starts
  · cases starts
  · rw [whole]

/-- and no pair. -/
theorem pairWith?_word (starts : word.head?.any isIdentStart = true)
    (inner : word.all isAsciiWord = true) (shorter : List Char → Value) :
    pairWith? shorter word = none :=
  pairWith?_of_uncut (uncut_of_bare (isBareChar_of_word inner) rfl) (colonKey?_word starts inner)
    shorter

/-- A word that stands for a value is read as this. -/
theorem spells_keyword (starts : word.head?.any isIdentStart = true)
    (inner : word.all isAsciiWord = true) (known : leaf? word = some value) :
    Spells word value := by
  have some : word ≠ [] := by
    rintro rfl
    cases starts
  refine .of_bare (isBareChar_of_word inner) some (pairWith?_word starts inner) fun layers _ =>
    singleWithin_of_leaf? (fun opening => ?_) known layers
  rw [opening] at starts
  cases starts

/-! ## Integers -/

theorem isIdentStart_of_isDigit {c : Char} (digit : c.isDigit = true) : isIdentStart c = false := by
  have high : c.val ≤ '9'.val := of_decide_eq_true ((Bool.and_eq_true _ _).mp digit).2
  rw [Bool.eq_false_iff]
  intro starts
  rcases (Bool.or_eq_true _ _).mp starts with letter | underscore
  · have low : 'A'.val ≤ c.val := by
      rcases (Bool.or_eq_true _ _).mp letter with upper | lower
      · exact (of_decide_eq_true upper).1
      · exact UInt32.le_trans (by decide) (of_decide_eq_true ((Bool.and_eq_true _ _).mp lower).1)
    exact absurd (UInt32.le_trans low high) (by decide)
  · rw [beq_iff_eq.mp underscore] at digit
    cases digit

/-- The digits of a positive number do not start with a zero. -/
theorem head?_toDigits_ne_zero {n : Nat} (pos : 0 < n) :
    (Nat.toDigits 10 n).head? ≠ some '0' := by
  induction n using Nat.strongRecOn with
  | _ n ih =>
      by_cases small : n < 10
      · rw [Nat.toDigits_of_lt_base small]
        exact (by decide : ∀ n < 10, 0 < n → [n.digitChar].head? ≠ some '0') n small pos
      · rw [Nat.toDigits_of_base_le (by decide) (Nat.le_of_not_lt small),
          List.head?_append_of_ne_nil _ Nat.toDigits_ne_nil]
        exact ih _ (by omega) (by omega)

/-- Only the number zero is written with a zero in front. -/
theorem length_toDigits_of_head? {n : Nat} (zero : (Nat.toDigits 10 n).head? = some '0') :
    (Nat.toDigits 10 n).length = 1 := by
  rcases Nat.eq_zero_or_pos n with rfl | pos
  · rfl
  · exact absurd zero (head?_toDigits_ne_zero pos)

/-- A number is written in decimal digits, with a minus sign in front if it is negative. -/
theorem toList_toString (n : Int) :
    (toString n).toList =
      if 0 ≤ n then Nat.toDigits 10 n.toNat else '-' :: Nat.toDigits 10 (-n).toNat := by
  rw [Int.toString_eq_repr, Int.repr_eq_if]
  split <;> simp [Nat.repr_eq_ofList_toDigits]

/-- What the reader of numbers finds in the digits of a number. -/
theorem exists_toDigits_eq_cons (n : Nat) :
    ∃ c cs, Nat.toDigits 10 n = c :: cs ∧ c.isDigit = true ∧
      ((c :: cs).all fun c => c.isDigit || c == '_') = true ∧
      (c == '0' && decide ((c :: cs).length > 1)) = false ∧
      Nat.ofDigitChars 10 ((c :: cs).filter Char.isDigit) 0 = n := by
  have digit : ∀ c ∈ Nat.toDigits 10 n, c.isDigit = true := fun c member =>
    Nat.isDigit_of_mem_toDigits (by decide) (by decide) member
  have size : Nat.ofDigitChars 10 ((Nat.toDigits 10 n).filter Char.isDigit) 0 = n := by
    rw [List.filter_eq_self.mpr digit, Nat.ofDigitChars_ten_toDigits]
  have unpadded := length_toDigits_of_head? (n := n)
  obtain ⟨c, cs, digits⟩ := List.exists_cons_of_ne_nil (Nat.toDigits_ne_nil (n := n) (b := 10))
  rw [digits] at digit size unpadded
  refine ⟨c, cs, digits, digit c (.head _), List.all_eq_true.mpr fun d member => ?_, ?_, size⟩
  · rw [digit d member, Bool.true_or]
  · rw [Bool.and_eq_false_imp]
    intro zero
    rw [beq_iff_eq.mp zero] at unpadded
    simpa using unpadded rfl

/-- The digits of a number are read as the number, with a sign or without. -/
theorem number?_toString {n : Int} (least : -(Int.pow 2 63) ≤ n) (most : n < Int.pow 2 63) :
    number? (toString n).toList = some (.int n) := by
  have fits : (decide (-Int.pow 2 63 ≤ n) && decide (n < Int.pow 2 63)) = true := by
    rw [decide_eq_true least, decide_eq_true most]
    rfl
  rw [toList_toString]
  split
  · rename_i unsigned
    obtain ⟨c, cs, digits, digit, all, unpadded, size⟩ := exists_toDigits_eq_cons n.toNat
    rw [digits, number?]
    · simp only [digit, all, unpadded, size, Int.toNat_of_nonneg unsigned, Bool.not_true,
        Bool.false_eq_true, if_false, if_true, fits]
    · rintro _ ⟨⟩
      cases digit
  · rename_i signed
    obtain ⟨c, cs, digits, digit, all, unpadded, size⟩ := exists_toDigits_eq_cons (-n).toNat
    have magnitude : -((-n).toNat : Int) = n := by omega
    rw [digits, number?]
    simp only [digit, all, unpadded, size, magnitude, Bool.not_true, Bool.false_eq_true, if_false,
      if_true, fits]

theorem isDigit_of_mem_toString {n : Int} {c : Char} (member : c ∈ (toString n).toList) :
    c.isDigit = true ∨ c = '-' := by
  have digit {m : Nat} (member : c ∈ Nat.toDigits 10 m) : c.isDigit = true :=
    Nat.isDigit_of_mem_toDigits (by decide) (by decide) member
  rw [toList_toString] at member
  split at member
  · exact .inl (digit member)
  · rcases List.mem_cons.mp member with sign | member
    · exact .inr sign
    · exact .inl (digit member)

/-- A number that 64 bits hold is read back. -/
theorem spells_int {n : Int} (least : -(Int.pow 2 63) ≤ n) (most : n < Int.pow 2 63) :
    Spells (toString n).toList (.int n) := by
  have bare : ∀ c ∈ (toString n).toList, isBareChar c = true := by
    intro c member
    rcases isDigit_of_mem_toString member with digit | rfl
    · exact isBareChar_of_isAsciiWord (isAsciiWord_of_isDigit digit)
    · rfl
  have known := number?_toString least most
  have chars : ∀ c ∈ (toString n).toList, c.isDigit = true ∨ c = '-' := fun _ member =>
    isDigit_of_mem_toString member
  cases code : (toString n).toList with
  | nil =>
      rw [code] at known
      cases known
  | cons c cs =>
      rw [code] at known bare chars
      have opens {d : Char} (other : d.isDigit = false ∧ d ≠ '-') : c ≠ d := by
        rintro rfl
        rcases chars c (.head _) with digit | sign
        · exact ne_of_kind digit other.1 rfl
        · exact other.2 sign
      have starts : isIdentStart c = false := by
        rcases chars c (.head _) with digit | rfl
        · exact isIdentStart_of_isDigit digit
        · rfl
      have colon : colonKey? (c :: cs) = none :=
        colonKey?_cons (opens (by decide)) (opens (by decide)) starts cs
      have word : keyword? (c :: cs) = none := by
        simp [keyword?, opens (d := 't') (by decide), opens (d := 'f') (by decide),
          opens (d := 'n') (by decide)]
      have leaf : leaf? (c :: cs) = some (.int n) := by
        rw [leaf?_cons (opens (by decide)) (opens (by decide)) (opens (by decide))
          (opens (by decide)), word, known, Option.none_or]
      have group : (c :: cs).head? ≠ some '(' := fun same =>
        opens (d := '(') (by decide) (Option.some.inj same)
      exact .of_bare bare (List.cons_ne_nil _ _)
        (pairWith?_of_uncut (uncut_of_bare bare rfl) colon) fun layers _ =>
          singleWithin_of_leaf? group leaf layers

/-! ## References -/

theorem isDottedPath_of_not_mem (plain : '.' ∉ text) (fuel : Nat) :
    isDottedPath fuel text = false := by
  unfold isDottedPath
  split
  · rfl
  · exact absurd (List.mem_cons_self) plain
  · rfl

theorem isIndexChain_of_not_mem (plain : '[' ∉ text) (fuel : Nat) :
    isIndexChain fuel text = false := by
  unfold isIndexChain
  split
  · rfl
  · exact absurd (List.mem_cons_self) plain
  · rfl

/-- A word refers to no node attribute. -/
theorem nodeReferenceWith?_word (inner : word.all isAsciiWord = true)
    (shorter : List Char → Value) : nodeReferenceWith? shorter word = none := by
  have plain {c : Char} (other : isAsciiWord c = false) {mark rest : List Char}
      (found : afterPrefix? mark word = some rest) : c ∉ rest := fun member =>
    ne_true_of_eq_false other <|
      List.all_eq_true.mp inner c ((suffix_of_afterPrefix? found).subset member)
  have undotted : ((afterPrefix? "node".toList word).any fun rest =>
      isDottedPath rest.length rest) = false := by
    cases found : afterPrefix? "node".toList word with
    | none => rfl
    | some rest => exact isDottedPath_of_not_mem (plain (by decide) found) _
  rw [nodeReferenceWith?, undotted, if_neg Bool.false_ne_true, List.findSome?_eq_none_iff]
  intro root _
  cases found : afterPrefix? root word with
  | none => rfl
  | some chain =>
      dsimp only
      rw [isIndexChain_of_not_mem (plain (by decide) found), if_neg Bool.false_ne_true]

/-- What opens a name opens no number. -/
theorem number?_of_isNameStart {c : Char} (starts : isNameStart c = true) (cs : List Char) :
    number? (c :: cs) = none := by
  have sign : c ≠ '-' := by
    rintro rfl
    cases starts
  have digit : c.isDigit = false := Bool.eq_false_iff.mpr fun digit =>
    ne_true_of_eq_false (isIdentStart_of_isDigit digit) (isIdentStart_of_isNameStart starts)
  rw [number?]
  · simp [digit]
  · rintro _ ⟨⟩
    exact sign rfl

/-- Any other name is read as a reference. -/
theorem spells_name (named : isName word = true) (other : keyword? word = none) :
    Spells word (.ref (String.ofList word)) := by
  have inner := all_of_isName named
  have starts := head?_isNameStart_of_isName named
  have bare := isBareChar_of_word inner
  cases word with
  | nil => cases named
  | cons c cs =>
      have first : isNameStart c = true := starts
      have opens {d : Char} (closed : isNameStart d = false) : c ≠ d := ne_of_kind first closed
      have opening {d : Char} (closed : isNameStart d = false) : (c :: cs).head? ≠ some d :=
        fun same => opens closed (Option.some.inj same)
      refine .of_bare bare (List.cons_ne_nil _ _) (pairWith?_word (head?_of_isName named) inner)
        fun layers _ => ?_
      have leaf : leaf? (c :: cs) = none := by
        rw [leaf?_cons (opens rfl) (opens rfl) (opens rfl) (opens rfl), other,
          number?_of_isNameStart first]
        rfl
      rw [singleWithin, singleWith, enclosed?_eq_none (opening rfl), leaf, Option.none_or,
        compoundWith?, enclosed?_eq_none (opening rfl), enclosed?_eq_none (opening rfl)]
      dsimp only
      rw [nodeReferenceWith?_word inner, if_pos named]

/-- A reference to a node attribute, its keys with dots between them. -/
theorem spells_path {keys : List String} (some : keys ≠ [])
    (names : ∀ key ∈ keys, isName key.toList = true) :
    Spells ("node." ++ String.intercalate "." keys).toList
      (.ref ("node." ++ String.intercalate "." keys)) := by
  have named : ∀ key ∈ keys, IsKey key := fun key member =>
    ⟨head?_of_isName (names key member), all_of_isName (names key member)⟩
  have use : SpellsUse keys ("node".toList ++ keys.flatMap fun key => '.' :: key.toList) :=
    .dotted fun key member => head?_isNameStart_of_isName (names key member)
  have code : ("node." ++ String.intercalate "." keys).toList =
      "node".toList ++ keys.flatMap fun key => '.' :: key.toList := by
    rw [flatMap_dot some, String.toList_append]
    rfl
  have bare : ∀ c ∈ "node".toList ++ keys.flatMap fun key => '.' :: key.toList,
      isBareChar c = true := by
    refine List.forall_mem_append.mpr ⟨isBareChar_of_word (by decide), fun c member => ?_⟩
    obtain ⟨key, among, member⟩ := List.mem_flatMap.mp member
    rcases List.mem_cons.mp member with rfl | member
    · rfl
    · exact isBareChar_of_word (named key among).inner c member
  rw [code]
  refine .of_bare bare (List.cons_ne_nil _ _) (use.pairWith?_eq_none named some)
    fun layers deep => ?_
  obtain ⟨layers, rfl⟩ : ∃ below, layers = below + 1 :=
    Nat.exists_eq_add_of_le' (Nat.le_trans (Nat.succ_pos _) deep)
  exact use.singleWithin_eq named some layers

end Rolewright.Value
