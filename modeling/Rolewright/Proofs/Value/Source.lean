/-
# Values written and read again

A value is written as a literal, and reading the literal gives the value back
(`parse_source_of_isPlain`), however deep its lists and maps are nested. Strings may hold anything
but quotes, backslashes and line feeds: commas, brackets, arrows and colons in them are passed over.
The proof is by induction on the value. A list or a map is a group (`Spells.of_group`): the parts of
its code are the codes of its items (`split_intercalate`), and one layer fewer reads each of them.
-/

import Rolewright.Proofs.Entries
import Rolewright.Proofs.Value.Leaves

namespace Rolewright.Value

open Recipe Text

variable {text : List Char} {parts : List (List Char)} {value : Value}

/-! ## Parts with separators between them -/

/-- What holds of the parts and of the separator, and of two texts together if of both, holds of
the parts with separators between them. -/
theorem intercalate_induction {P : List Char → Prop} {sep : List Char} (nil : P [])
    (append : ∀ {front back}, P front → P back → P (front ++ back)) (between : P sep)
    (each : ∀ part ∈ parts, P part) : P (sep.intercalate parts) := by
  induction parts with
  | nil => exact nil
  | cons part parts ih =>
      obtain ⟨here, later⟩ := List.forall_mem_cons.mp each
      cases parts with
      | nil => simpa using here
      | cons next parts =>
          rw [List.intercalate_cons_cons]
          exact append (append here between) (ih later)

theorem length_le_intercalate {part : List Char} (member : part ∈ parts) (sep : List Char) :
    part.length ≤ (sep.intercalate parts).length := by
  induction parts with
  | nil => cases member
  | cons first parts ih =>
      cases parts with
      | nil => simp_all
      | cons next parts =>
          rw [List.intercalate_cons_cons, List.length_append, List.length_append]
          rcases List.mem_cons.mp member with rfl | later
          · omega
          · have := ih later
            omega

/-- Parts are found again between the separators, also if a blank stands behind the last. -/
theorem split_intercalate (each : ∀ part ∈ parts, IsPiece ',' part ∧ IsSolid part)
    {padding : List Char} (padded : padding ∈ [[], [' ']]) :
    split ',' ([',', ' '].intercalate parts ++ padding) = parts := by
  induction parts with
  | nil =>
      simp only [List.mem_cons, List.not_mem_nil, or_false] at padded
      rcases padded with rfl | rfl <;> rfl
  | cons part parts ih =>
      obtain ⟨⟨whole, solid⟩, later⟩ := List.forall_mem_cons.mp each
      cases parts with
      | nil =>
          have pieces_eq := whole padding
          simp only [List.mem_cons, List.not_mem_nil, or_false] at padded
          rcases padded with rfl | rfl
          · simpa using split_singleton whole solid
          · have last : pieces ',' .start [' '] = [[' ']] := rfl
            rw [List.intercalate_singleton, split, pieces_eq, last]
            simp [prepend, solid.trim_concat, solid.isEmpty_eq]
      | cons next parts =>
          have cut := split_append (by decide) rfl whole solid
            ([',', ' '].intercalate (next :: parts) ++ padding)
          rw [ih later] at cut
          rw [List.intercalate_cons_cons]
          simpa using cut

/-- Balanced parts with commas between them are balanced. -/
theorem isBalanced_intercalate (each : ∀ part ∈ parts, IsBalanced part) :
    IsBalanced ([',', ' '].intercalate parts) :=
  intercalate_induction .nil .append (.plain rfl (.plain rfl .nil)) each

theorem lineless_intercalate (each : ∀ part ∈ parts, '\n' ∉ part) :
    '\n' ∉ [',', ' '].intercalate parts :=
  intercalate_induction (P := fun text => '\n' ∉ text) List.not_mem_nil List.not_mem_append
    (by decide) each

/-! ## Groups -/

/-- What begins with a bracket is no single value. -/
theorem leaf?_group {left : Char} (opens : left = '[' ∨ left = '\x7b') (cs : List Char) :
    leaf? (left :: cs) = none := by
  rcases opens with rfl | rfl <;>
  · rw [leaf?_cons (by decide) (by decide) (by decide) (by decide)]
    rfl

/-- Of a list or a map only what it holds is to be shown, and what that denotes when each expression
in it is read as it should be. -/
theorem Spells.of_group {left right : Char} {inside : List Char} (pair : IsBracketPair left right)
    (opens : left = '[' ∨ left = '\x7b') (balanced : IsBalanced inside)
    (lineless : '\n' ∉ inside)
    (compound : ∀ layers, inside.length ≤ layers →
      compoundWith? (singleWithin (layers + 1)) (left :: (inside ++ [right])) = some value) :
    Spells (left :: (inside ++ [right])) value where
  solid := by
    refine ⟨?_, ?_⟩
    · cases pair <;> rfl
    · rw [← List.cons_append, List.getLast?_concat]
      cases pair <;> rfl
  balanced := .group pair balanced .nil
  uncut _ _ := balanced.uncut_group pair
  lineless := by
    cases pair <;> simpa using lineless
  pairless := by
    refine pairWith?_of_uncut (balanced.uncut_group pair) ?_
    cases pair <;> rfl
  reads layers deep := by
    obtain ⟨layers, rfl⟩ : ∃ below, layers = below + 1 :=
      Nat.exists_eq_add_of_le' (Nat.le_trans (Nat.succ_pos _) deep)
    have group : enclosed? '(' ')' (left :: (inside ++ [right])) = none := by
      rcases opens with rfl | rfl <;> rfl
    rw [singleWithin, singleWith, group, leaf?_group opens, Option.none_or, compound layers]
    simp only [List.length_cons, List.length_append] at deep
    omega

/-! ## Lists -/

theorem sources_eq_map (items : List Value) : sources items = items.map source := by
  induction items with
  | nil => rfl
  | cons item items ih => rw [sources, ih, List.map_cons]

/-- A list is written as its items, with commas between them, in brackets. -/
theorem toList_source_list (items : List Value) :
    (source (.list items)).toList =
      '[' :: ([',', ' '].intercalate (items.map fun item => item.source.toList) ++ [']']) := by
  simp [source, sources_eq_map, String.toList_intercalate, Function.comp_def]

/-- It is read back if each of its items is. -/
theorem spells_list {items : List Value} (each : ∀ item ∈ items, Spells item.source.toList item) :
    Spells (source (.list items)).toList (.list items) := by
  have balanced := isBalanced_intercalate <|
    List.forall_mem_map.mpr fun item among => (each item among).balanced
  have lineless := lineless_intercalate <|
    List.forall_mem_map.mpr fun item among => (each item among).lineless
  have parts := split_intercalate (List.forall_mem_map.mpr fun item among =>
    ⟨(each item among).isPiece, (each item among).solid⟩) (.head _)
  rw [List.append_nil] at parts
  rw [toList_source_list]
  refine .of_group .square (.inl rfl) balanced lineless fun layers deep => ?_
  have read : ∀ item ∈ items, singleWithin (layers + 1) (trim item.source.toList) = item := by
    intro item among
    have member := List.mem_map_of_mem (f := fun item : Value => item.source.toList) among
    rw [(each item among).solid.trim_eq]
    exact (each item among).reads layers (Nat.le_trans (length_le_intercalate member _) deep)
  rw [compoundWith?, balanced.enclosed?_eq .square]
  dsimp only
  rw [parts, List.map_map]
  exact congrArg (some ∘ Value.list) ((List.map_congr_left read).trans (List.map_id _))

/-! ## Maps -/

theorem entrySources_eq_map (entries : List (String × Value)) :
    entrySources entries = entries.map fun entry => entry.1 ++ ": " ++ entry.2.source := by
  induction entries with
  | nil => rfl
  | cons entry entries ih => rw [entrySources, ih, List.map_cons]

/-- The code of an entry of a map. -/
def entryCode (entry : String × Value) : List Char :=
  entry.1.toList ++ ':' :: ' ' :: entry.2.source.toList

/-- What stands between the braces of a map. -/
def mapCode (entries : List (String × Value)) : List Char :=
  ' ' :: ([',', ' '].intercalate (entries.map entryCode) ++ [' '])

/-- A map is written as its entries in braces. -/
theorem toList_source_map (entries : List (String × Value)) :
    (source (.map entries)).toList = '\x7b' :: (mapCode entries ++ ['\x7d']) := by
  have codes : entries.map entryCode =
      entries.map fun entry => entry.1.toList ++ ':' :: ' ' :: entry.2.source.toList := rfl
  simp [source, entrySources_eq_map, String.toList_intercalate, mapCode, codes, Function.comp_def]

theorem length_le_mapCode {entry : String × Value} {entries : List (String × Value)}
    (among : entry ∈ entries) : entry.2.source.toList.length ≤ (mapCode entries).length := by
  have short := length_le_intercalate (List.mem_map_of_mem (f := entryCode) among) [',', ' ']
  simp only [mapCode, entryCode, List.length_cons, List.length_append] at short ⊢
  omega

section Entry

variable {entry : String × Value} (named : IsKey entry.1)
  (spells : Spells entry.2.source.toList entry.2)

include named spells

/-- Neither a comma nor an arrow outside quotes and brackets cuts an entry, -/
theorem uncut_entryCode {sep : Char} (known : sep = ',' ∨ sep = '=') :
    Uncut sep .start (entryCode entry) .start := by
  have other : isBareChar sep = false ∧ sep ≠ ' ' := by
    rcases known with rfl | rfl <;> decide
  have word := uncut_of_bare (isBareChar_of_word named.inner) other.1
  have colon : ':' ≠ sep := ne_of_kind rfl other.1
  exact word.append
    (.cons (fun _ _ => colon) (.cons (fun _ _ => other.2.symm) (spells.uncut _ known)))

/-- which has no blanks at its ends. -/
theorem isSolid_entryCode : IsSolid (entryCode entry) where
  first := by
    have starts := named.starts
    cases key : entry.1.toList with
    | nil =>
        rw [key] at starts
        cases starts
    | cons c cs =>
        have word := List.all_eq_true.mp named.inner c (key ▸ .head _)
        simp [entryCode, key, isBlank_of_isAsciiWord word]
  last := by
    have split : entryCode entry = (entry.1.toList ++ [':', ' ']) ++ entry.2.source.toList := by
      simp [entryCode]
    rw [split, getLast?_append_of_any spells.solid.last]
    exact spells.solid.last

/-- An entry is a pair of its key and the code of its value. -/
theorem pairWith?_entryCode (shorter : List Char → Value) :
    pairWith? shorter (entryCode entry) = some (entry.1, entry.2.source.toList) := by
  have arrow : splitAtMark? ['=', '>'] .start (entryCode entry) = none :=
    splitAtMark?_of_uncut (uncut_entryCode named spells (.inr rfl))
  have word : takeIdent isIdentStart isAsciiWord (entryCode entry) =
      some (entry.1.toList, ':' :: ' ' :: entry.2.source.toList) :=
    takeIdent_append named.starts named.inner (by decide)
  have key : colonKey? (entryCode entry) =
      some (entry.1.toList, ' ' :: entry.2.source.toList) := by
    unfold colonKey?
    split
    · rename_i same
      rw [same] at word
      cases word
    · rename_i same
      rw [same] at word
      cases word
    · rw [word]
      rfl
  have value : trimStart (' ' :: entry.2.source.toList) = entry.2.source.toList :=
    trimStart_of_solid spells.solid.first
  have pair : colonPair? (entryCode entry) = some (entry.1.toList, entry.2.source.toList) := by
    have lineless : entry.2.source.toList.contains '\n' = false := by
      simpa using spells.lineless
    rw [colonPair?, key]
    simp only [Option.bind_eq_bind, Option.bind_some, value, lineless, spells.solid.isEmpty_eq,
      List.length_cons]
    simp
  rw [pairWith?, arrow, pair]
  simp

end Entry

/-- Code that consists of entries is read as the map of them. -/
theorem pairsWith?_entryCodes {entries : List (String × Value)} {shorter : List Char → Value}
    (some : entries ≠ []) (distinct : (entries.map (·.1)).Nodup)
    (pairs : ∀ entry ∈ entries,
      pairWith? shorter (entryCode entry) = .some (entry.1, entry.2.source.toList))
    (read : ∀ entry ∈ entries, shorter (trim entry.2.source.toList) = entry.2) :
    pairsWith? shorter (entries.map entryCode) = .some (.map entries) := by
  have found : (entries.map entryCode).mapM (pairWith? shorter) =
      .some (entries.map fun entry => (entry.1, entry.2.source.toList)) := by
    clear some distinct read
    induction entries with
    | nil => rfl
    | cons entry entries ih =>
        obtain ⟨here, later⟩ := List.forall_mem_cons.mp pairs
        rw [List.map_cons, List.mapM_cons, here, ih later]
        rfl
  have values : (entries.map fun entry => (entry.1, entry.2.source.toList)).map
      (fun pair => (pair.1, shorter (trim pair.2))) = entries := by
    rw [List.map_map]
    refine (List.map_congr_left fun entry among => ?_).trans (List.map_id _)
    exact Prod.ext rfl (read entry among)
  have nonempty : (entries.map entryCode).isEmpty = false := by simpa using some
  rw [pairsWith?, nonempty, found]
  simp only [Bool.false_eq_true, if_false, Option.map_some]
  rw [values, Entries.ofPairs_of_nodup distinct]

section Map

variable {entries : List (String × Value)} (named : ∀ entry ∈ entries, IsKey entry.1)
  (each : ∀ entry ∈ entries, Spells entry.2.source.toList entry.2)

include named each

/-- The entries of a map are balanced code -/
theorem isBalanced_mapCode : IsBalanced (mapCode entries) := by
  have codes : ∀ entry ∈ entries, IsBalanced (entryCode entry) := fun entry among =>
    (isBalanced_of_bare (isBareChar_of_word (named entry among).inner)).append
      (.plain rfl (.plain rfl (each entry among).balanced))
  have inner := isBalanced_intercalate (List.forall_mem_map.mpr codes)
  exact .plain rfl (inner.append (.plain rfl .nil))

/-- without a line feed, -/
theorem lineless_mapCode : '\n' ∉ mapCode entries := by
  have codes : ∀ entry ∈ entries, '\n' ∉ entryCode entry := by
    intro entry among
    have key := (named entry among).not_mem (c := '\n') (by decide)
    simpa [entryCode, key] using (each entry among).lineless
  simpa [mapCode] using lineless_intercalate (List.forall_mem_map.mpr codes)

/-- and are found again between the commas. -/
theorem split_mapCode : split ',' (mapCode entries) = entries.map entryCode := by
  rw [mapCode, split_blank (by decide)]
  refine split_intercalate (List.forall_mem_map.mpr fun entry among => ⟨?_, ?_⟩) (by decide)
  · exact isPiece_of_uncut (uncut_entryCode (named entry among) (each entry among) (.inl rfl))
  · exact isSolid_entryCode (named entry among) (each entry among)

/-- A map is read back if each of its values is and no key comes twice. -/
theorem spells_map (distinct : (entries.map (·.1)).Nodup) :
    Spells (source (.map entries)).toList (.map entries) := by
  have balanced := isBalanced_mapCode named each
  rw [toList_source_map]
  refine .of_group .curly (.inr rfl) balanced (lineless_mapCode named each) fun layers deep => ?_
  have read : ∀ entry ∈ entries,
      singleWithin (layers + 1) (trim entry.2.source.toList) = entry.2 := by
    intro entry among
    rw [(each entry among).solid.trim_eq]
    exact (each entry among).reads layers (Nat.le_trans (length_le_mapCode among) deep)
  have other : enclosed? '[' ']' ('\x7b' :: (mapCode entries ++ ['\x7d'])) = none := rfl
  rw [compoundWith?, other]
  dsimp only
  rw [balanced.enclosed?_eq .curly]
  dsimp only
  rw [split_mapCode named each]
  cases entries with
  | nil => rfl
  | cons entry entries =>
      have pairs := pairsWith?_entryCodes (List.cons_ne_nil _ _) distinct (fun entry among =>
        pairWith?_entryCode (named entry among) (each entry among) _) read
      rw [List.map_cons] at pairs ⊢
      dsimp only
      rw [pairs]
      rfl

end Map

/-! ## The round trip -/

/-- The values that are written as literals denoting them: to any depth of lists and maps, strings
that need no escape, symbols, integers of 64 bits, booleans, nil, local names, and paths of node
attributes. -/
inductive IsPlain : Value → Prop
  | str {text : String} (quotable : IsQuotable text.toList) : IsPlain (.str text)
  | sym {word mark : List Char} (starts : word.head?.any isIdentStart = true)
      (inner : word.all isAsciiWord = true) (marked : mark ∈ [[], ['?'], ['!']]) :
      IsPlain (.sym (String.ofList (word ++ mark)))
  | int {n : Int} (least : -(Int.pow 2 63) ≤ n) (most : n < Int.pow 2 63) : IsPlain (.int n)
  | bool (b : Bool) : IsPlain (.bool b)
  | nil : IsPlain .nil
  | name {name : String} (named : isName name.toList = true)
      (other : name ∉ ["true", "false", "nil"]) : IsPlain (.ref name)
  | path {keys : List String} (some : keys ≠ [])
      (names : ∀ key ∈ keys, isName key.toList = true) :
      IsPlain (.ref ("node." ++ String.intercalate "." keys))
  | list {items : List Value} (each : ∀ item ∈ items, IsPlain item) : IsPlain (.list items)
  | map {entries : List (String × Value)} (named : ∀ entry ∈ entries, IsKey entry.1)
      (distinct : (entries.map (·.1)).Nodup) (each : ∀ entry ∈ entries, IsPlain entry.2) :
      IsPlain (.map entries)

/-- A plain value is spelled by its code. -/
theorem IsPlain.spells (plain : IsPlain value) : Spells value.source.toList value := by
  -- By induction on the value: a group is spelled if all that stands in it is.
  induction plain with
  | str quotable =>
      rw [toList_source_str, escaped_of_not_mem quotable.quote]
      simpa using spells_quoted quotable
  | sym starts inner marked => simpa [source] using spells_symbol starts inner marked
  | int least most => exact spells_int least most
  | bool b => cases b <;> exact spells_keyword (by decide) (by decide) rfl
  | nil => exact spells_keyword (by decide) (by decide) rfl
  | @name name named other =>
      have word : keyword? name.toList = none := by
        simp only [List.mem_cons, List.not_mem_nil, or_false, not_or] at other
        simp only [keyword?, String.toList_inj, other, if_false]
      simpa [source] using spells_name named word
  | path some names => exact spells_path some names
  | list _ ih => exact spells_list ih
  | map named distinct _ ih => exact spells_map named ih distinct

/-- A plain value is written as a literal that is read as this value. -/
theorem parse_source_of_isPlain (plain : IsPlain value) : parse value.source.toList = value :=
  plain.spells.parse_eq

/-- Options with strings that look like code, and with groups in a group. -/
def nestedOptions : Value :=
  .map [("notes", .list [.str "a, b => [c", .sym "on?", .map []]), ("port", .int (-1)),
    ("host", .ref "node.web.host")]

theorem parse_source_nestedOptions :
    IsPlain nestedOptions ∧ parse nestedOptions.source.toList = nestedOptions := by
  have string : IsPlain (.str "a, b => [c") := .str ⟨by decide, by decide, by decide⟩
  have symbol : IsPlain (.sym (String.ofList ("on".toList ++ ['?']))) :=
    .sym (by decide) (by decide) (by decide)
  have path : IsPlain (.ref ("node." ++ String.intercalate "." ["web", "host"])) :=
    .path (by decide) (by decide)
  have empty : IsPlain (.map []) := .map nofun .nil nofun
  have notes : IsPlain (.list [.str "a, b => [c", .sym "on?", .map []]) :=
    .list (by simpa using ⟨string, symbol, empty⟩)
  have plain : IsPlain nestedOptions := by
    refine .map ?_ (by decide) ?_
    · simp only [List.forall_mem_cons]
      exact ⟨⟨by decide, by decide⟩, ⟨by decide, by decide⟩, ⟨by decide, by decide⟩, nofun⟩
    · simp only [List.forall_mem_cons]
      exact ⟨notes, .int (by decide) (by decide), path, nofun⟩
  exact ⟨plain, parse_source_of_isPlain plain⟩

end Rolewright.Value
