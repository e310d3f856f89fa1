/-
# References to node attributes

A node attribute is referred to by indices, `node['nginx'][:port]`, or with dots, `node.nginx.port`.
However its keys are written, such an expression is read as a reference to one path, the keys with
dots between them (`parse_of_spellsUse`). What is between the brackets is read as a key in every
layer of the reader, since no key holds an expression.
-/

import Rolewright.Proofs.Recipe.Gaps

namespace Rolewright.Value

open Recipe Text

/-! ## What is written -/

/-- A key that is a word, so that it may be written as a symbol. -/
structure IsKey (key : String) : Prop where
  starts : key.toList.head?.any isIdentStart = true
  inner : key.toList.all isAsciiWord = true

/-- A key as it is written between brackets. -/
inductive SpellsKey (key : String) : List Char → Prop
  | single : SpellsKey key ('\'' :: (key.toList ++ ['\'']))
  | double : SpellsKey key ('"' :: (key.toList ++ ['"']))
  | symbol : SpellsKey key (':' :: key.toList)

/-- The code of indices with these keys. Before each bracket may stand characters of one kind. -/
inductive SpellsIndices (gap : Char → Bool) : List String → List Char → Prop
  | nil : SpellsIndices gap [] []
  | cons {key : String} {keys : List String} {blanks code chain : List Char}
      (between : blanks.all gap = true) (spelled : SpellsKey key code)
      (later : SpellsIndices gap keys chain) :
      SpellsIndices gap (key :: keys) (blanks ++ '[' :: (code ++ ']' :: chain))

/-- The code of a reference to the attribute with these keys. With dots each key is a name. -/
inductive SpellsUse (keys : List String) : List Char → Prop
  | indexed {chain : List Char} (spelled : SpellsIndices (fun _ => false) keys chain) :
      SpellsUse keys ("node".toList ++ chain)
  | dotted (names : ∀ key ∈ keys, key.toList.head?.any isNameStart = true) :
      SpellsUse keys ("node".toList ++ keys.flatMap fun key => '.' :: key.toList)

/-! ## Keys -/

theorem containsText_eq_false {c : Char} {mark text : List Char} (plain : c ∉ text) :
    containsText (c :: mark) text = false := by
  have absent : splitAtFirst? (c :: mark) text = none := by
    induction text with
    | nil => rfl
    | cons d ds ih =>
        have here : afterPrefix? (c :: mark) (d :: ds) = none :=
          afterPrefix?_cons_eq_none (fun same => plain (List.mem_of_mem_head? same)) mark
        rw [splitAtFirst?, here, ih fun member => plain (.tail _ member)]
        rfl
  rw [containsText, absent]
  rfl

theorem IsKey.not_mem {key : String} (named : IsKey key) {c : Char}
    (other : isAsciiWord c = false) : c ∉ key.toList :=
  not_mem_of_all named.inner other

namespace SpellsKey

variable {key : String} {code : List Char}

/-- A key holds word characters, quotes and a colon. -/
theorem not_mem (spelled : SpellsKey key code) (named : IsKey key) {c : Char}
    (other : isAsciiWord c = false) (plain : c ∉ ['\'', '"', ':']) : c ∉ code := by
  have inside : c ∉ key.toList := named.not_mem other
  cases spelled <;> simp_all

theorem isSolid (spelled : SpellsKey key code) (named : IsKey key) : IsSolid code := by
  cases spelled with
  | single => exact isSolid_quoted _
  | double =>
      refine ⟨rfl, ?_⟩
      rw [← List.cons_append, List.getLast?_concat]
      rfl
  | symbol => exact isSolid_symbol named.inner

/-- The spelling of a key is read as a text or as a symbol, and either names the key. -/
theorem leaf?_eq (spelled : SpellsKey key code) (named : IsKey key) :
    leaf? code = some (.str key) ∨ leaf? code = some (.sym key) := by
  have unquoted {quote : Char} (known : quote = '\'' ∨ quote = '"') :
      unquote? quote (key.toList ++ [quote]) = some key.toList :=
    unquote?_append (isPlainWithin_word known named.inner)
  cases spelled with
  | single =>
      refine .inl ?_
      simp [leaf?, stringLiteral?, quotedLiteral?, unquoted (.inl rfl)]
  | double =>
      have plain : '#' ∉ '"' :: (key.toList ++ ['"']) :=
        SpellsKey.double.not_mem named (by decide) (by decide)
      refine .inl ?_
      simp [leaf?, stringLiteral?, quotedLiteral?, containsText_eq_false plain,
        unquoted (.inr rfl)]
  | symbol =>
      have name : symbol? (':' :: key.toList) = some key.toList := by
        rw [symbol?, takeIdent_whole named.starts named.inner]
      exact .inr (by simpa using leaf?_of_symbol? name)

/-- A key is read as itself, in any layer of the reader but the last. -/
theorem indexKeyWith?_eq (spelled : SpellsKey key code) (named : IsKey key)
    {shorter : List Char → Value} {layers : Nat}
    (reads : shorter code = singleWithin (layers + 1) code) :
    indexKeyWith? shorter code = some key := by
  have opening : code.head? ≠ some '(' := by
    cases spelled <;> simp
  rw [indexKeyWith?, (spelled.isSolid named).trim_eq, reads]
  rcases spelled.leaf?_eq named with leaf | leaf <;> rw [singleWithin_of_leaf? opening leaf]

/-- It is read up to the bracket that closes it. -/
theorem takeWhile_append (spelled : SpellsKey key code) (named : IsKey key) (rest : List Char) :
    (code ++ ']' :: rest).takeWhile (fun c => c != '[' && c != ']') = code := by
  have inside : ∀ c ∈ code, (c != '[' && c != ']') = true := fun c member => by
    have left : c ≠ '[' := fun same =>
      spelled.not_mem named (by decide) (by decide) (same ▸ member)
    have right : c ≠ ']' := fun same =>
      spelled.not_mem named (by decide) (by decide) (same ▸ member)
    simp [left, right]
  rw [List.takeWhile_append_of_pos inside, List.takeWhile_cons_of_neg (by decide),
    List.append_nil]

theorem isEmpty_eq (spelled : SpellsKey key code) : code.isEmpty = false := by
  cases spelled <;> rfl

end SpellsKey

/-! ## Chains of indices -/

/-- Nothing in front of the first bracket is looked at. -/
theorem bracketed_append {code : List Char} (plain : '[' ∉ code) (rest : List Char) :
    bracketed (code ++ rest) = bracketed rest := by
  induction code with
  | nil => rfl
  | cons c cs ih =>
      have other : (c == '[') = false := beq_false_of_ne fun same => plain (same ▸ .head _)
      rw [List.cons_append, bracketed, other, if_neg (by decide)]
      exact ih fun member => plain (.tail _ member)

/-- A key in brackets is found first, and then those behind it. -/
theorem SpellsKey.bracketed_cons {key : String} {code : List Char} (spelled : SpellsKey key code)
    (named : IsKey key) (rest : List Char) :
    bracketed ('[' :: (code ++ ']' :: rest)) = code :: bracketed rest := by
  have plain : '[' ∉ code ++ [']'] := by
    simpa using spelled.not_mem named (by decide) (by decide)
  have later : bracketed (code ++ ']' :: rest) = bracketed rest := by
    simpa using bracketed_append plain rest
  rw [bracketed]
  simp [spelled.takeWhile_append named, later, spelled.isEmpty_eq]

namespace SpellsIndices

variable {keys : List String} {chain : List Char}

/-- Without gaps the text of an index follows the one before it at once. -/
theorem exists_eq_cons {gap : Char → Bool} (spelled : SpellsIndices gap keys chain)
    (some : keys ≠ []) : ∃ blanks rest, blanks.all gap = true ∧ chain = blanks ++ '[' :: rest := by
  cases spelled with
  | nil => exact absurd rfl some
  | cons between _ _ => exact ⟨_, _, between, rfl⟩

theorem mono {gap wider : Char → Bool} (spelled : SpellsIndices gap keys chain)
    (wide : ∀ c, gap c = true → wider c = true) : SpellsIndices wider keys chain := by
  induction spelled with
  | nil => exact .nil
  | cons between spelled _ ih =>
      refine .cons (List.all_eq_true.mpr fun c member => ?_) spelled ih
      exact wide c (List.all_eq_true.mp between c member)

theorem eq_nil_of_all {blanks : List Char} (between : blanks.all (fun _ => false) = true) :
    blanks = [] := by
  cases blanks with
  | nil => rfl
  | cons c cs => cases between

/-- Indices hold word characters, quotes, colons, brackets and what stands between them. -/
theorem not_mem {gap : Char → Bool} (spelled : SpellsIndices gap keys chain)
    (named : ∀ key ∈ keys, IsKey key) {c : Char} (other : isAsciiWord c = false)
    (plain : c ∉ ['\'', '"', ':', '[', ']']) (apart : gap c = false) : c ∉ chain := by
  simp only [List.mem_cons, List.not_mem_nil, or_false, not_or] at plain
  induction spelled with
  | nil => exact List.not_mem_nil
  | @cons key keys blanks code chain between spelled later ih =>
      obtain ⟨here, named⟩ := List.forall_mem_cons.mp named
      have code := spelled.not_mem here other (by simp [plain])
      have blank : c ∉ blanks := not_mem_of_all between apart
      simp [plain, blank, code, ih named]

/-- The keys of a chain of indices are read one after the other. -/
theorem mapM_bracketed (spelled : SpellsIndices (fun _ => false) keys chain)
    (named : ∀ key ∈ keys, IsKey key) (layers : Nat) :
    (bracketed chain).mapM (indexKeyWith? (singleWithin (layers + 1))) = some keys := by
  induction spelled with
  | nil => rfl
  | cons between spelled later ih =>
      obtain ⟨here, named⟩ := List.forall_mem_cons.mp named
      rw [eq_nil_of_all between, List.nil_append, spelled.bracketed_cons here, List.mapM_cons,
        spelled.indexKeyWith?_eq here rfl, ih named]
      rfl

/-- Such a chain is recognized as one. -/
theorem isIndexChain_eq (spelled : SpellsIndices (fun _ => false) keys chain)
    (named : ∀ key ∈ keys, IsKey key) (some : keys ≠ []) {fuel : Nat}
    (enough : keys.length ≤ fuel) : isIndexChain fuel chain = true := by
  induction spelled generalizing fuel with
  | nil => exact absurd rfl some
  | @cons key keys blanks code chain between spelled later ih =>
      obtain ⟨here, named⟩ := List.forall_mem_cons.mp named
      obtain ⟨fuel, rfl⟩ := Nat.exists_eq_add_of_le' (Nat.le_of_add_left_le enough)
      rw [eq_nil_of_all between, List.nil_append, isIndexChain]
      simp only [spelled.takeWhile_append here, List.drop_left, spelled.isEmpty_eq, Bool.not_false,
        Bool.true_and, Bool.or_eq_true]
      by_cases none : keys = []
      · subst none
        cases later
        exact .inl rfl
      · exact .inr (ih named none (Nat.le_of_add_le_add_right enough))

theorem length_le {gap : Char → Bool} (spelled : SpellsIndices gap keys chain) :
    keys.length ≤ chain.length := by
  induction spelled with
  | nil => exact Nat.le_refl 0
  | cons _ _ _ ih =>
      simp only [List.length_cons, List.length_append]
      omega

end SpellsIndices

/-! ## References -/

/-- What is read without a change to what is open includes words in double quotes. -/
structure IsTransparentToKeys (P : Nat → List Char → Prop) : Prop extends IsTransparent P where
  double {n : Nat} {word : List Char} :
    word.all isAsciiWord = true → P n ('"' :: (word ++ ['"']))

theorem isTransparentToKeys_isPieceWithin : IsTransparentToKeys (IsPieceWithin ',') where
  toIsTransparent := isTransparent_isPieceWithin (by decide) (by decide)
  double inner := isPieceWithin_between (isPlainWithin_word (.inr rfl) inner)

namespace IsTransparentToKeys

variable {P : Nat → List Char → Prop} (transparent : IsTransparentToKeys P)

include transparent

/-- What holds of all texts and symbols holds of a key. -/
theorem of_key {key : String} {code : List Char} (named : IsKey key) (spelled : SpellsKey key code)
    (n : Nat) : P n code := by
  cases spelled with
  | single =>
      refine transparent.quoted (List.all_eq_true.mpr fun c member => ?_)
      simp [isTextChar, List.all_eq_true.mp named.inner c member]
  | double => exact transparent.double named.inner
  | symbol =>
      refine transparent.atom nofun (List.all_eq_true.mpr fun c member => ?_)
      rcases List.mem_cons.mp member with rfl | member
      · rfl
      · simp [isAtomChar, List.all_eq_true.mp named.inner c member]

/-- Indices are read without a change to what is open if the characters between them are. -/
theorem of_indices {gap : Char → Bool} {n : Nat} (between : ∀ c, gap c = true → P n [c])
    {keys : List String} {chain : List Char} (spelled : SpellsIndices gap keys chain)
    (named : ∀ key ∈ keys, IsKey key) : P n chain := by
  have blanks {code : List Char} (all : code.all gap = true) : P n code := by
    induction code with
    | nil => exact transparent.nil
    | cons c cs ih =>
        obtain ⟨here, later⟩ := (Bool.and_eq_true _ _).mp (List.all_cons.symm.trans all)
        exact transparent.append (between c here) (ih later)
  induction spelled with
  | nil => exact transparent.nil
  | @cons key keys front code chain between spelled later ih =>
      obtain ⟨here, named⟩ := List.forall_mem_cons.mp named
      have index : P n ('[' :: (code ++ [']'])) :=
        transparent.group (transparent.of_key here spelled _)
      have whole := transparent.append (transparent.append (blanks between) index) (ih named)
      simpa using whole

end IsTransparentToKeys

/-! ## References -/

section Dotted

variable {keys : List String}

theorem flatMap_dot (some : keys ≠ []) :
    (keys.flatMap fun key => '.' :: key.toList) =
      '.' :: (String.intercalate "." keys).toList := by
  rw [String.toList_intercalate]
  induction keys with
  | nil => exact absurd rfl some
  | cons key keys ih =>
      cases keys with
      | nil => simp
      | cons next keys =>
          rw [List.flatMap_cons, ih (List.cons_ne_nil _ _)]
          simp [List.intercalate_cons_cons]

/-- Names with a dot before each are recognized as a path. -/
theorem isDottedPath_eq (named : ∀ key ∈ keys, IsKey key)
    (names : ∀ key ∈ keys, key.toList.head?.any isNameStart = true) (some : keys ≠ []) {fuel : Nat}
    (enough : keys.length ≤ fuel) :
    isDottedPath fuel (keys.flatMap fun key => '.' :: key.toList) = true := by
  induction keys generalizing fuel with
  | nil => exact absurd rfl some
  | cons key keys ih =>
      obtain ⟨here, named⟩ := List.forall_mem_cons.mp named
      obtain ⟨starts, names⟩ := List.forall_mem_cons.mp names
      obtain ⟨fuel, rfl⟩ := Nat.exists_eq_add_of_le' (Nat.le_of_add_left_le enough)
      rw [List.flatMap_cons, List.cons_append, isDottedPath]
      by_cases none : keys = []
      · subst none
        rw [List.flatMap_nil, List.append_nil, takeIdent_whole starts here.inner]
        rfl
      · have later := ih named names none (Nat.le_of_add_le_add_right enough)
        rw [flatMap_dot none] at later ⊢
        rw [takeIdent_append starts here.inner (by decide)]
        dsimp only
        rw [later, Bool.or_true]

end Dotted

namespace SpellsUse

variable {keys : List String} {text : List Char}

/-- A reference holds word characters, quotes, colons, brackets and dots. -/
theorem not_mem (use : SpellsUse keys text) (named : ∀ key ∈ keys, IsKey key) {c : Char}
    (other : isAsciiWord c = false) (plain : c ∉ ['\'', '"', ':', '[', ']', '.']) : c ∉ text := by
  have word : "node".toList.all isAsciiWord = true := by decide
  have node : c ∉ "node".toList := not_mem_of_all word other
  cases use with
  | indexed spelled =>
      have marks : c ∉ ['\'', '"', ':', '[', ']'] := fun member =>
        plain (List.mem_append_left ['.'] member)
      exact List.not_mem_append node (spelled.not_mem named other marks rfl)
  | dotted names =>
      refine List.not_mem_append node fun member => ?_
      obtain ⟨key, among, member⟩ := List.mem_flatMap.mp member
      rcases List.mem_cons.mp member with rfl | member
      · exact plain (by decide)
      · exact (named key among).not_mem other member

theorem exists_eq_cons (use : SpellsUse keys text) (some : keys ≠ []) :
    ∃ c cs, text = "node".toList ++ c :: cs ∧ (c = '[' ∨ c = '.') := by
  cases use with
  | indexed spelled =>
      obtain ⟨blanks, rest, between, rfl⟩ := spelled.exists_eq_cons some
      rw [SpellsIndices.eq_nil_of_all between]
      exact ⟨'[', rest, rfl, .inl rfl⟩
  | dotted names =>
      rw [flatMap_dot some]
      exact ⟨'.', _, rfl, .inr rfl⟩

theorem isSolid (use : SpellsUse keys text) (named : ∀ key ∈ keys, IsKey key) : IsSolid text := by
  have solid {c : Char} (member : c ∈ text) : (!isBlank c) = true := by
    by_contra blank
    have blank : isBlank c = true := by simpa using blank
    have other : isAsciiWord c = false :=
      Bool.eq_false_iff.mpr fun word => by simp [isBlank_of_isAsciiWord word] at blank
    refine use.not_mem named other (fun mark => ?_) member
    have marks : ['\'', '"', ':', '[', ']', '.'].any isBlank = false := by decide
    exact List.any_eq_false.mp marks c mark blank
  have nonempty : text ≠ [] := by
    cases use <;> exact List.cons_ne_nil _ _
  refine ⟨?_, ?_⟩
  · rw [List.head?_eq_some_head nonempty]
    exact solid (List.head_mem nonempty)
  · rw [List.getLast?_eq_some_getLast nonempty]
    exact solid (List.getLast_mem nonempty)

/-- It holds no comma outside its brackets -/
theorem isPiece (use : SpellsUse keys text) (named : ∀ key ∈ keys, IsKey key) :
    IsPiece ',' text := by
  have transparent := isTransparentToKeys_isPieceWithin
  have node : IsPieceWithin ',' 0 "node".toList := transparent.atom (by decide) (by decide)
  cases use with
  | indexed spelled =>
      have between : ∀ c : Char, false = true → IsPieceWithin ',' 0 [c] := nofun
      exact transparent.append node (transparent.of_indices between spelled named)
  | dotted names =>
      refine transparent.append node ?_
      clear names
      induction keys with
      | nil => exact transparent.nil
      | cons key keys ih =>
          obtain ⟨here, named⟩ := List.forall_mem_cons.mp named
          have word : IsPieceWithin ',' 0 key.toList :=
            isPieceWithin_atom (by decide) (all_isAtomChar here.inner)
          rw [List.flatMap_cons, List.cons_append]
          exact isPieceWithin_append (isPieceWithin_singleton rfl fun _ => by decide)
            (transparent.append word (ih named))

/-- The path of a reference is that of its keys. -/
theorem nodeReferenceWith?_eq (use : SpellsUse keys text) (named : ∀ key ∈ keys, IsKey key)
    (some : keys ≠ []) (layers : Nat) :
    nodeReferenceWith? (singleWithin (layers + 1)) text =
      .some ("node." ++ String.intercalate "." keys) := by
  rw [nodeReferenceWith?]
  cases use with
  | @indexed chain spelled =>
      have undotted : isDottedPath chain.length chain = false := by
        obtain ⟨blanks, rest, between, rfl⟩ := spelled.exists_eq_cons some
        rw [SpellsIndices.eq_nil_of_all between]
        rfl
      rw [attributeRoots, List.findSome?_cons, afterPrefix?_append]
      simp only [Option.any_some, undotted, spelled.isIndexChain_eq named some spelled.length_le,
        indexPathWith?, spelled.mapM_bracketed named layers, Bool.false_eq_true, if_false, if_true]
      rfl
  | dotted names =>
      have enough : keys.length ≤ (keys.flatMap fun key => '.' :: key.toList).length := by
        clear named names some
        induction keys with
        | nil => exact Nat.le_refl 0
        | cons key keys ih =>
            simp only [List.flatMap_cons, List.length_cons, List.length_append]
            omega
      have dotted := isDottedPath_eq named names some enough
      simp only [afterPrefix?_append, Option.any_some, dotted, if_true]
      rw [flatMap_dot some]
      simp [← String.toList_inj]

/-- A reference is neither a literal nor a pair. -/
theorem leaf?_eq_none (use : SpellsUse keys text) (some : keys ≠ []) : leaf? text = none := by
  obtain ⟨c, cs, rfl, -⟩ := use.exists_eq_cons some
  have keyword : keyword? ("node".toList ++ c :: cs) = none := by
    simp [keyword?]
  have literal : stringLiteral? ("node".toList ++ c :: cs) = none := by
    simp [stringLiteral?, quotedLiteral?]
  rw [leaf?, literal, keyword]
  rfl

/-- and is no pair. -/
theorem pairWith?_eq_none (use : SpellsUse keys text) (named : ∀ key ∈ keys, IsKey key)
    (some : keys ≠ []) (shorter : List Char → Value) : pairWith? shorter text = none := by
  have arrow := use.not_mem named (c := '=') (by decide) (by decide)
  rw [pairWith?, splitAtMark?_of_not_mem arrow]
  obtain ⟨c, cs, rfl, mark⟩ := use.exists_eq_cons some
  have stops : isAsciiWord c = false := by rcases mark with rfl | rfl <;> decide
  have other : c ≠ ':' := by rcases mark with rfl | rfl <;> decide
  have head : takeIdent isIdentStart isAsciiWord ("node".toList ++ c :: cs) =
      .some ("node".toList, c :: cs) := takeIdent_append (by decide) (by decide) stops
  have colon : colonKey? ("node".toList ++ c :: cs) = none := by
    unfold colonKey?
    split
    · rename_i same
      cases same
    · rename_i same
      cases same
    · rw [head]
      split
      · rename_i same
        cases same
        exact absurd rfl other
      · rfl
  rw [colonPair?, colon]
  rfl

/-- A reference is read in two layers, the second for the keys between brackets. -/
theorem singleWithin_eq (use : SpellsUse keys text) (named : ∀ key ∈ keys, IsKey key)
    (some : keys ≠ []) (layers : Nat) :
    singleWithin (layers + 2) text = .ref ("node." ++ String.intercalate "." keys) := by
  have group : enclosed? '(' ')' text = none ∧
      compoundWith? (singleWithin (layers + 1)) text = none := by
    obtain ⟨c, cs, rfl, -⟩ := use.exists_eq_cons some
    exact ⟨rfl, rfl⟩
  rw [singleWithin, singleWith, group.1, use.leaf?_eq_none some, group.2,
    use.nodeReferenceWith?_eq named some]
  rfl

end SpellsUse

/-- A reference is read as the path of its keys, however they are written. -/
theorem parse_of_spellsUse {keys : List String} {text : List Char} (use : SpellsUse keys text)
    (named : ∀ key ∈ keys, IsKey key) (some : keys ≠ []) :
    parse text = .ref ("node." ++ String.intercalate "." keys) := by
  have solid := use.isSolid named
  have split := split_singleton (use.isPiece named) solid
  obtain ⟨layers, length⟩ : ∃ layers, text.length = layers + 1 := by
    obtain ⟨c, cs, rfl, -⟩ := use.exists_eq_cons some
    exact ⟨_, rfl⟩
  rw [parse, solid.trim_eq, expressionWith_of_single split (use.pairWith?_eq_none named some _),
    single, length, use.singleWithin_eq named some]

end Rolewright.Value
