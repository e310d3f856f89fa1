/-
# Assignments to node attributes

A node attribute is assigned under one of the words for its precedence, with or without `node.`
before it. However that and its keys are written, the assignment is found as one of the path of its
keys (`Assigns.lineFindings_eq`), and the file has the attribute (`Assigns.isSome_get?`). Of the
words for a precedence some begin others, so the search for the one that is written has to pass over
those that leave a part of the word.
-/

import Rolewright.Proofs.Recipe.Findings
import Rolewright.Proofs.Recipe.Gathering
import Rolewright.Proofs.Text.Parts
import Rolewright.Proofs.Value.References

namespace Rolewright.Recipe

open Text

/-! ## What is written -/

/-- The code before the sign of an assignment to the attribute with these keys, with characters of
one kind before the brackets. -/
inductive SpellsTarget (gap : Char → Bool) (keys : List String) : List Char → Prop
  | intro {qualifier level chain : List Char} (qualified : qualifier ∈ [[], "node.".toList])
      (known : level ∈ precedenceLevels) (spelled : Value.SpellsIndices gap keys chain) :
      SpellsTarget gap keys (qualifier ++ (level ++ chain))

theorem SpellsTarget.mono {gap wider : Char → Bool} {keys : List String} {text : List Char}
    (target : SpellsTarget gap keys text) (wide : ∀ c, gap c = true → wider c = true) :
    SpellsTarget wider keys text := by
  obtain ⟨qualified, known, spelled⟩ := target
  exact .intro qualified known (spelled.mono wide)

/-- The path of an attribute. -/
def attributePath (keys : List String) : String :=
  String.intercalate "." keys

/-! ## Reading one assignment -/

section Reading

variable {keys : List String} {text tail value : List Char}

theorem indexKeys?_eq_none (other : (trimStart tail).head? ≠ some '[') (fuel : Nat) :
    indexKeys? fuel tail = none := by
  cases fuel with
  | zero => rfl
  | succ fuel =>
      rw [indexKeys?]
      split
      · rename_i same
        rw [same] at other
        exact absurd rfl other
      · rfl

/-- The keys of a chain are read up to its end, whatever blanks stand between the indices. -/
theorem exists_indexKeys?_eq {chain : List Char} (spelled : Value.SpellsIndices isBlank keys chain)
    (named : ∀ key ∈ keys, Value.IsKey key) (some : keys ≠ [])
    (other : (trimStart tail).head? ≠ .some '[') {fuel : Nat} (enough : keys.length ≤ fuel) :
    ∃ codes, indexKeys? fuel (chain ++ tail) = .some (codes, tail) ∧
      codes.mapM Value.indexKey? = .some keys := by
  induction spelled generalizing fuel with
  | nil => exact absurd rfl some
  | @cons key keys blanks code chain between spelled later ih =>
      obtain ⟨here, named⟩ := List.forall_mem_cons.mp named
      obtain ⟨fuel, rfl⟩ := Nat.exists_eq_add_of_le' (Nat.le_of_add_left_le enough)
      have start : trimStart ((blanks ++ '[' :: (code ++ ']' :: chain)) ++ tail) =
          '[' :: (code ++ ']' :: (chain ++ tail)) := by
        rw [List.append_assoc, trimStart,
          List.dropWhile_append_of_pos (List.all_eq_true.mp between)]
        simp [isBlank]
      have key : Value.indexKey? code = .some key := spelled.indexKeyWith?_eq here rfl
      rw [indexKeys?, start]
      simp only [spelled.takeWhile_append here, List.drop_left, spelled.isEmpty_eq,
        Bool.false_eq_true, if_false]
      by_cases none : keys = []
      · subst none
        cases later
        rw [List.nil_append, indexKeys?_eq_none other]
        exact ⟨[code], rfl, by simp [key]⟩
      · obtain ⟨codes, read, whole⟩ := ih named none (Nat.le_of_add_le_add_right enough)
        rw [read]
        exact ⟨code :: codes, rfl, by simp [key, whole]⟩

/-- What is assigned stands behind a sign that opens no index. -/
theorem head?_of_assigned? (given : assigned? tail = some value) :
    (trimStart tail).head? ≠ some '[' := by
  intro bracket
  obtain ⟨rest, start⟩ := List.head?_eq_some_iff.mp bracket
  rw [assigned?, afterAssign?, start] at given
  cases given

/-- A chain with keys begins with an end of the word before it. -/
theorem exists_chain_eq_cons {gap : Char → Bool} {chain : List Char}
    (spelled : Value.SpellsIndices gap keys chain) (some : keys ≠ [])
    (blank : ∀ c, gap c = true → isBlank c = true) :
    ∃ c cs, chain = c :: cs ∧ isAsciiWord c = false := by
  obtain ⟨blanks, rest, between, rfl⟩ := spelled.exists_eq_cons some
  cases blanks with
  | nil => exact ⟨'[', rest, rfl, by decide⟩
  | cons c cs =>
      refine ⟨c, _, rfl, Bool.eq_false_iff.mpr fun word => ?_⟩
      have here := blank c (List.all_eq_true.mp between c (.head _))
      rw [isBlank_of_isAsciiWord word] at here
      cases here

theorem all_of_mem_precedenceLevels {level : List Char} (known : level ∈ precedenceLevels) :
    level.all isAsciiWord = true :=
  (by decide : ∀ level ∈ precedenceLevels, level.all isAsciiWord = true) level known

/-- Of the words for a precedence only the one that is written reads the indices: behind a shorter
one there is more of the word. -/
theorem indexKeys?_of_afterPrefix? {level other chain rest : List Char}
    (known : level ∈ precedenceLevels) (known' : other ∈ precedenceLevels) (differ : other ≠ level)
    {c : Char} (stops : isAsciiWord c = false)
    (found : afterPrefix? other (level ++ c :: chain) = some rest) (fuel : Nat) :
    indexKeys? fuel rest = none := by
  have split : other ++ rest = level ++ c :: chain :=
    List.isPrefixOf?_eq_some_iff_append_eq.mp found
  have free : c ∉ other := fun member =>
    absurd (List.all_eq_true.mp (all_of_mem_precedenceLevels known') c member)
      (ne_true_of_eq_false stops)
  obtain ⟨more, longer, left⟩ := exists_append_of_not_mem split free
  cases more with
  | nil => exact absurd (by simpa using longer.symm) differ
  | cons d ds =>
      have word : isAsciiWord d = true := by
        refine List.all_eq_true.mp (all_of_mem_precedenceLevels known) d ?_
        exact longer ▸ List.mem_append_right _ (.head _)
      have start : trimStart rest = rest := by
        rw [left, List.cons_append, trimStart_cons_of_not_blank (isBlank_of_isAsciiWord word)]
      refine indexKeys?_eq_none ?_ fuel
      rw [start, left]
      rintro ⟨⟩
      cases word

theorem withoutPrefix_qualifier {qualifier level : List Char}
    (qualified : qualifier ∈ [[], "node.".toList]) (known : level ∈ precedenceLevels)
    (rest : List Char) :
    withoutPrefix "node.".toList (qualifier ++ (level ++ rest)) = level ++ rest := by
  simp only [List.mem_cons, List.not_mem_nil, or_false] at qualified
  rcases qualified with rfl | rfl
  · simp only [precedenceLevels, List.map_cons, List.map_nil, List.mem_cons, List.not_mem_nil,
      or_false] at known
    rcases known with rfl | rfl | rfl | rfl | rfl | rfl | rfl | rfl | rfl | rfl <;> rfl
  · rw [withoutPrefix, afterPrefix?_append]
    rfl

/-- An assignment is read as one to the path of its keys. -/
theorem attributeAssignment?_eq (target : SpellsTarget isBlank keys text)
    (named : ∀ key ∈ keys, Value.IsKey key) (some : keys ≠ [])
    (given : assigned? tail = .some value) :
    attributeAssignment? (text ++ tail) = .some (attributePath keys, value) := by
  obtain ⟨qualified, known, spelled⟩ := target
  rename_i qualifier level chain
  have body : withoutPrefix "node.".toList ((qualifier ++ (level ++ chain)) ++ tail) =
      level ++ (chain ++ tail) := by
    rw [List.append_assoc, List.append_assoc, withoutPrefix_qualifier qualified known]
  rw [attributeAssignment?, body]
  rw [findSome?_eq_of_unique known fun other known' differ => ?_]
  · have enough : keys.length ≤ (chain ++ tail).length + 1 := by
      have length := spelled.length_le
      rw [List.length_append]
      omega
    obtain ⟨codes, read, whole⟩ :=
      exists_indexKeys?_eq spelled named some (head?_of_assigned? given) enough
    simp only [afterPrefix?_append, Option.bind_eq_bind, Option.bind_some, read, given, whole]
    rfl
  · obtain ⟨c, cs, rfl, stops⟩ := exists_chain_eq_cons spelled some fun _ => id
    cases found : afterPrefix? other (level ++ (c :: cs ++ tail)) with
    | none => rfl
    | some rest =>
        have none := indexKeys?_of_afterPrefix? known known' differ stops found (rest.length + 1)
        simp [none]

end Reading

/-! ## Assignments of a file -/

/-- The attribute and the value that a finding assigns, if it is an assignment to one. -/
def Finding.assignment? : Finding → Option (String × Value)
  | .attribute path value => some (path, value)
  | _ => none

namespace Gathering

theorem attributes_flush (o : Origin) (g : Gathering) :
    (g.flush o).attributes = g.found.attributes := by
  unfold flush
  split <;> rfl

theorem attributes_add (o : Origin) (g : Gathering) (finding : Finding) :
    (g.add o finding).found.attributes =
      finding.assignment?.elim g.found.attributes fun (path, value) =>
        g.found.attributes.put path value := by
  cases finding with
  | unknown first last guards =>
      unfold add
      cases g.pending with
      | none => rfl
      | some stretch =>
          dsimp only
          split
          · rfl
          · exact attributes_flush o g
  | «attribute» path value =>
      simp only [add, attributes_flush, Finding.assignment?]
      rfl
  | _ => exact attributes_flush o g

theorem attributes_foldl_add (o : Origin) (findings : List Finding) (g : Gathering) :
    ((findings.foldl (add o) g).flush o).attributes =
      (findings.filterMap Finding.assignment?).foldl
        (fun entries (path, value) => entries.put path value) g.found.attributes := by
  induction findings generalizing g with
  | nil => exact attributes_flush o g
  | cons finding findings ih =>
      rw [List.foldl_cons, ih, attributes_add]
      cases assigns : finding.assignment? <;> simp [assigns]

end Gathering

/-- The attributes of a file are those that are found to be assigned, the last value counting. -/
theorem attributes_extract (file : String) (types : List String) (source : List Char) :
    (SourceFile.extract file types source).attributes =
      Entries.ofPairs ((findingsOf file types source).filterMap Finding.assignment?) :=
  Gathering.attributes_foldl_add _ _ _

/-- A line of a source that assigns a value to what is written in front of the sign. It is met by
going into blocks that are no resource, and a block on it stands for itself. -/
structure Assigns (source : List Char) (line : Line) (target value : List Char) : Prop where
  reached : ∃ node ∈ Node.ofLines (Line.ofSource source),
    node.Reaches BlockOf.IsPlain (.statement line)
  code : ∃ tail, (splitModifier line.text).1 = target ++ tail ∧ assigned? tail = some value
  plain : ∀ inline, splitInlineBlock? (splitModifier line.text).1 = some inline →
    CallRole.ofHead inline.head = .wrapper

section Assigns

variable {keys : List String} {source target value : List Char} {line : Line}
  (spelled : SpellsTarget isBlank keys target) (named : ∀ key ∈ keys, Value.IsKey key)
  (some : keys ≠ [])

include spelled named some

theorem plainFindings_of_spellsTarget (o : Origin) (guards : List Guard) (line : Line)
    {tail : List Char} (given : assigned? tail = .some value) :
    o.plainFindings guards line (target ++ tail) =
      [.attribute (attributePath keys) (argumentValue line value)] := by
  rw [Origin.plainFindings, attributeAssignment?_eq spelled named some given]

/-- Such a line is one finding, under whatever guards. -/
theorem Assigns.lineFindings_eq (assigns : Assigns source line target value) (o : Origin)
    (guards : List Guard) :
    o.lineFindings guards line =
      [.attribute (attributePath keys) (argumentValue line value)] := by
  obtain ⟨tail, code, given⟩ := assigns.code
  have plain := plainFindings_of_spellsTarget spelled named some o
    (guards ++ modifierGuards (splitModifier line.text).2) line given
  rw [Origin.lineFindings, Origin.statementFindings]
  cases found : splitInlineBlock? (splitModifier line.text).1 with
  | none =>
      simp only [found]
      rwa [code]
  | some inline =>
      simp only [found, assigns.plain inline found]
      rwa [code]

/-- The file has the attribute. -/
theorem Assigns.isSome_get? (assigns : Assigns source line target value) (file : String)
    (types : List String) :
    ((SourceFile.extract file types source).attributes.get? (attributePath keys)).isSome := by
  obtain ⟨node, member, reaches⟩ := assigns.reached
  obtain ⟨guards, given⟩ :=
    Origin.exists_guards_of_reaches (o := ⟨file, types, lines source⟩) reaches []
  have found : .attribute (attributePath keys) (argumentValue line value) ∈
      findingsOf file types source := by
    refine Origin.mem_nodesFindings.mpr ⟨node, member, given ?_⟩
    rw [Origin.nodeFindings, assigns.lineFindings_eq spelled named some]
    exact .head _
  rw [attributes_extract]
  refine Entries.isSome_get?_ofPairs (List.mem_filterMap.mpr ⟨_, found, rfl⟩)

end Assigns

end Rolewright.Recipe
