/-
# Files that are written as they are asked for

An answer in the format that a generator is asked for: files in fenced blocks one after the other,
and prose between them. Parsing it gives back the files, each with one line break in place of the
blanks at its end, and finds nothing wrong (`Response.parse_answer`). A block takes its file whole
as long as no row of the file closes the block, and a row of prose opens none.
-/

import Mathlib.Data.List.Basic
import Mathlib.Data.List.TakeWhile
import Mathlib.Tactic.MkIffOfInductiveProp
import Rolewright.Proofs.Role.Contained
import Rolewright.Proofs.Role.Files

namespace Rolewright

open Text

/-! ## Rows of a text -/

namespace Text

/-- The rows of a text are what it is split into at its line feeds. -/
theorem rows_eq_splitOn (cs : List Char) : rows cs = cs.splitOn '\n' := by
  induction cs with
  | nil => rfl
  | cons c cs ih =>
      rw [rows, List.splitOn_cons_eq_if_modifyHead, ih]
      simp only [beq_iff_eq]
      split
      · rfl
      · cases split : cs.splitOn '\n' with
        | nil => exact absurd split (List.splitOn_ne_nil _ _)
        | cons row rest => rfl

theorem unlines_rows (cs : List Char) : unlines (rows cs) = cs := by
  rw [rows_eq_splitOn, unlines, List.intercalate_splitOn]

theorem rows_append_break (xs ys : List Char) : rows (xs ++ '\n' :: ys) = rows xs ++ rows ys := by
  simp only [rows_eq_splitOn, List.splitOn_append_cons_self]

theorem rows_of_unbroken {row : List Char} (unbroken : '\n' ∉ row) : rows row = [row] := by
  rw [rows_eq_splitOn, List.splitOn_eq_singleton unbroken]

theorem flatMap_rows_of_unbroken {texts : List (List Char)}
    (unbroken : ∀ text ∈ texts, '\n' ∉ text) : texts.flatMap rows = texts := by
  induction texts with
  | nil => rfl
  | cons text rest ih =>
      obtain ⟨first, others⟩ := List.forall_mem_cons.mp unbroken
      rw [List.flatMap_cons, rows_of_unbroken first, ih others, List.singleton_append]

/-- The rows of several texts, each on rows of its own. -/
theorem rows_unlines {texts : List (List Char)} (nonempty : texts ≠ []) :
    rows (unlines texts) = texts.flatMap rows := by
  induction texts with
  | nil => exact absurd rfl nonempty
  | cons text rest ih =>
      cases rest with
      | nil => rw [unlines, List.intercalate_singleton, List.flatMap_singleton]
      | cons next rest =>
          have later := ih (List.cons_ne_nil _ _)
          rw [unlines, List.intercalate_cons_cons, List.append_assoc, List.singleton_append,
            rows_append_break, List.flatMap_cons, ← later, unlines]

end Text

/-- A file as a generator is asked to write it, and the rows of prose that it writes before it. -/
structure FencedFile where
  prose : List (List Char)
  language : List Char
  path : String
  content : String
deriving Repr

/-- A row that is no fence. -/
def IsProse (row : List Char) : Prop :=
  '\n' ∉ row ∧ ¬ Response.fence <+: row

instance (row : List Char) : Decidable (IsProse row) :=
  inferInstanceAs (Decidable (_ ∧ _))

namespace FencedFile

open Response

/-- The row that opens the block of a file. -/
def opening (f : FencedFile) : List Char :=
  fence ++ f.language ++ " path=".toList ++ f.path.toList

/-- A text that ends in a line break. -/
def ended (cs : List Char) : List Char :=
  if cs.getLast? = some '\n' then cs else cs ++ ['\n']

/-- The prose before a file and its block. -/
def text (f : FencedFile) : List Char :=
  unlines (f.prose ++ [f.opening, ended f.content.toList ++ fence])

/-- The content of a file with one line break in place of the blanks at its end. -/
def trimmed (f : FencedFile) : String :=
  String.ofList (trimEnd f.content.toList ++ ['\n'])

/-- What is asked of a file: a language of the usual characters, a path that is not refused and that
a fence can name, and a content of which no row closes a block. -/
@[mk_iff]
structure IsWellFormed (f : FencedFile) : Prop where
  prose : ∀ row ∈ f.prose, IsProse row
  language : ∀ c ∈ f.language, isLanguageChar c = true
  accepted : refusal? f.path = none
  notHere : ¬ "./".toList <+: f.path.toList
  plain : ∀ c ∈ f.path.toList, isPathChar c = true
  unclosed : ∀ row ∈ rows f.content.toList, isClosing row = false

-- Characters could also be gone through one and all, so the instances on lists are named.
instance (f : FencedFile) : Decidable f.IsWellFormed :=
  have := List.decidableBAll (isLanguageChar · = true) f.language
  have := List.decidableBAll (isPathChar · = true) f.path.toList
  decidable_of_iff _ (isWellFormed_iff f).symm

/-! ## Rows of a block -/

theorem exists_ended (cs : List Char) :
    ∃ front, ended cs = front ++ ['\n'] ∧ (cs = front ∨ cs = front ++ ['\n']) := by
  unfold ended
  split
  · rename_i last
    obtain ⟨front, rfl⟩ := List.getLast?_eq_some_iff.mp last
    exact ⟨front, rfl, .inr rfl⟩
  · exact ⟨cs, rfl, .inl rfl⟩

theorem trimEnd_append_break (cs : List Char) : trimEnd (cs ++ ['\n']) = trimEnd cs := by
  have blank : isBlank '\n' = true := by decide
  rw [trimEnd, List.reverse_append, List.reverse_singleton, List.singleton_append,
    List.dropWhile_cons_of_pos blank, trimEnd]

/-- The rows between the fences of a file, and what they make of its content. -/
theorem exists_body (f : FencedFile) :
    ∃ body, rows (ended f.content.toList ++ fence) = body ++ [fence] ∧
      Response.content body = f.trimmed ∧ ∀ row ∈ body, row ∈ rows f.content.toList := by
  obtain ⟨front, ends, same⟩ := exists_ended f.content.toList
  refine ⟨rows front, ?_, ?_, fun row member => ?_⟩
  · rw [ends, List.append_assoc, List.singleton_append, rows_append_break,
      show rows fence = [fence] from rows_of_unbroken (by decide)]
  · rw [Response.content, unlines_rows, trimmed]
    rcases same with same | same
    · rw [same]
    · rw [same, trimEnd_append_break]
  · rcases same with same | same
    · rwa [same]
    · rw [same, rows_append_break]
      exact List.mem_append_left _ member

/-- The word before the path of a file. -/
theorem afterPathWord?_append (path : List Char) :
    afterPathWord? ("path=".toList ++ path) = some path := by
  rw [afterPathWord?, afterPrefix?_append]
  rfl

/-- A language is told from the blank after it. -/
theorem isFenceBlank_of_isLanguageChar {c : Char} (char : isLanguageChar c = true) :
    isFenceBlank c = false := by
  cases blank : isFenceBlank c with
  | false => rfl
  | true =>
      rw [isFenceBlank, Bool.or_eq_true, beq_iff_eq, beq_iff_eq] at blank
      rcases blank with rfl | rfl <;> revert char <;> decide

theorem isQuote_of_isPathChar {c : Char} (char : isPathChar c = true) :
    (c == '"' || c == '\'') = false := by
  cases quote : (c == '"' || c == '\'') with
  | false => rfl
  | true =>
      rw [Bool.or_eq_true, beq_iff_eq, beq_iff_eq] at quote
      rcases quote with rfl | rfl <;> revert char <;> decide

/-- What follows a language, a blank and the word for a path. -/
theorem afterLanguage?_append {first : Char} {others path : List Char}
    (language : ∀ c ∈ first :: others, isLanguageChar c = true) :
    afterLanguage? (first :: others ++ ' ' :: ("path=".toList ++ path)) = some path := by
  have word : ("path=".toList ++ path).dropWhile isFenceBlank = "path=".toList ++ path := rfl
  have blank : isFenceBlank ' ' = true := by decide
  have inner := isFenceBlank_of_isLanguageChar (language first (.head _))
  have rest : (first :: others ++ ' ' :: ("path=".toList ++ path)).dropWhile isLanguageChar =
      ' ' :: ("path=".toList ++ path) := by
    rw [List.dropWhile_append_of_pos language]
    rfl
  rw [afterLanguage?, List.cons_append, List.dropWhile_cons_of_neg (by simp [inner]),
    ← List.cons_append, rest, List.dropWhile_cons_of_pos blank, word,
    List.length_cons, if_pos (Nat.lt_succ_self _), afterPathWord?_append]

/-- The path that a fence names is what follows the word for it, whatever language stands first. -/
theorem openedPath?_of_word {language path : List Char}
    (languageChars : ∀ c ∈ language, isLanguageChar c = true) (nonempty : path ≠ [])
    (plain : ∀ c ∈ path, isPathChar c = true) :
    openedPath? (fence ++ (language ++ ' ' :: ("path=".toList ++ path))) = Option.some path := by
  obtain ⟨first, rest, rfl⟩ := List.exists_cons_of_ne_nil nonempty
  have whole : (first :: rest).takeWhile isPathChar = first :: rest :=
    List.takeWhile_eq_self_iff.mpr plain
  have unquoted := isQuote_of_isPathChar (plain first (.head _))
  have bare : ("path=".toList ++ first :: rest).dropWhile isFenceBlank =
      "path=".toList ++ first :: rest := rfl
  have blank : isFenceBlank ' ' = true := by decide
  rw [openedPath?, afterPrefix?_append]
  cases language with
  | nil =>
      simp only [List.nil_append, Option.bind_eq_bind, Option.bind_some, List.head?_cons,
        Option.any_some, blank, if_true, List.dropWhile_cons_of_pos blank, bare,
        afterPathWord?_append, Option.some_or, unquoted, Bool.false_eq_true, if_false, whole,
        List.isEmpty_cons]
  | cons c others =>
      have named := @afterLanguage?_append c others (first :: rest) languageChars
      have inner := isFenceBlank_of_isLanguageChar (languageChars c (.head _))
      rw [List.cons_append] at named ⊢
      simp only [Option.bind_eq_bind, Option.bind_some, List.head?_cons, Option.any_some, inner,
        Bool.false_eq_true, if_false, Option.none_or, named, unquoted, whole, List.isEmpty_cons]

/-- The path that the opening row of a file names. -/
theorem openedPath?_opening {f : FencedFile} (wellFormed : f.IsWellFormed) :
    openedPath? f.opening = some f.path.toList := by
  obtain ⟨nonempty, -⟩ := of_refusal?_eq_none wellFormed.accepted
  rw [opening, List.append_assoc, List.append_assoc]
  exact openedPath?_of_word wellFormed.language (by simpa using nonempty) wellFormed.plain

theorem not_mem_opening {f : FencedFile} (wellFormed : f.IsWellFormed) : '\n' ∉ f.opening := by
  simp only [opening, List.mem_append, not_or]
  refine ⟨⟨⟨by decide, fun member => ?_⟩, by decide⟩, fun member => ?_⟩
  · exact absurd (wellFormed.language _ member) (by decide)
  · exact absurd (wellFormed.plain _ member) (by decide)

/-- The rows of a file: prose, and a block that its content leaves open. -/
theorem exists_rows_text {f : FencedFile} (wellFormed : f.IsWellFormed) :
    ∃ body, rows f.text = f.prose ++ f.opening :: (body ++ [fence]) ∧
      Response.content body = f.trimmed ∧ ∀ row ∈ body, isClosing row = false := by
  obtain ⟨body, split, trimmed, among⟩ := exists_body f
  refine ⟨body, ?_, trimmed, fun row member => wellFormed.unclosed row (among row member)⟩
  rw [text, rows_unlines (by simp), List.flatMap_append,
    flatMap_rows_of_unbroken fun row member => (wellFormed.prose row member).1, List.flatMap_cons,
    rows_of_unbroken (not_mem_opening wellFormed), List.flatMap_singleton, split,
    List.singleton_append]

end FencedFile

namespace Response

open FencedFile

/-- An answer of files and some rows of prose after them. It ends in the last fence if there are
none, and in a line break if there is an empty one. -/
def answer (files : List FencedFile) (epilogue : List (List Char)) : List Char :=
  unlines (files.map FencedFile.text ++ epilogue)

/-! ## Blocks -/

theorem openedPath?_of_isProse {row : List Char} (prose : IsProse row) :
    openedPath? row = none := by
  cases found : afterPrefix? fence row with
  | none =>
      rw [openedPath?, found]
      rfl
  | some rest => exact absurd ⟨rest, List.isPrefixOf?_eq_some_iff_append_eq.mp found⟩ prose.2

theorem pathBlocks_prose (prose rest : List (List Char)) (only : ∀ row ∈ prose, IsProse row) :
    pathBlocks (prose ++ rest) = pathBlocks rest := by
  induction prose with
  | nil => rfl
  | cons row prose ih =>
      obtain ⟨first, others⟩ := List.forall_mem_cons.mp only
      rw [List.cons_append, pathBlocks, openedPath?_of_isProse first, ih others]

/-- A block takes the rows up to the first one that closes it. -/
theorem takeBlock?_append {body : List (List Char)} (rest : List (List Char))
    (unclosed : ∀ row ∈ body, isClosing row = false) :
    takeBlock? (body ++ fence :: rest) = some (body, rest) := by
  induction body with
  | nil => rfl
  | cons row body ih =>
      obtain ⟨first, others⟩ := List.forall_mem_cons.mp unclosed
      rw [List.cons_append, takeBlock?, first, ih others]
      rfl

theorem pathBlocks_block {row path : List Char} {rest body after : List (List Char)}
    (opened : openedPath? row = some path) (taken : takeBlock? rest = some (body, after)) :
    pathBlocks (row :: rest) = (path, content body) :: pathBlocks after := by
  rw [pathBlocks, opened]
  dsimp only
  split
  · rename_i none
    cases taken.symm.trans none
  · rename_i found
    obtain ⟨rfl, rfl⟩ := Prod.mk.inj (Option.some.inj (taken.symm.trans found))
    rfl

/-- A file is read as the block that it is written as. -/
theorem pathBlocks_text {f : FencedFile} (wellFormed : f.IsWellFormed)
    (rest : List (List Char)) :
    pathBlocks (rows f.text ++ rest) = (f.path.toList, f.trimmed) :: pathBlocks rest := by
  obtain ⟨body, split, trimmed, unclosed⟩ := exists_rows_text wellFormed
  have taken : takeBlock? (body ++ [fence] ++ rest) = some (body, rest) := by
    rw [List.append_assoc, List.singleton_append]
    exact takeBlock?_append rest unclosed
  rw [split, List.append_assoc, pathBlocks_prose _ _ wellFormed.prose, List.cons_append,
    pathBlocks_block (openedPath?_opening wellFormed) taken, trimmed]

theorem pathBlocks_answer {files : List FencedFile} {epilogue : List (List Char)}
    (nonempty : files ≠ []) (wellFormed : ∀ f ∈ files, f.IsWellFormed)
    (prose : ∀ row ∈ epilogue, IsProse row) :
    pathBlocks (rows (answer files epilogue)) = files.map fun f => (f.path.toList, f.trimmed) := by
  have unbroken : epilogue.flatMap rows = epilogue :=
    flatMap_rows_of_unbroken fun row member => (prose row member).1
  rw [answer, rows_unlines (by simp [nonempty]), List.flatMap_append, unbroken]
  clear nonempty unbroken
  induction files with
  | nil =>
      have none := pathBlocks_prose epilogue [] prose
      rw [List.append_nil, pathBlocks] at none
      exact none
  | cons f files ih =>
      obtain ⟨first, others⟩ := List.forall_mem_cons.mp wellFormed
      rw [List.map_cons, List.flatMap_cons, List.append_assoc, pathBlocks_text first, ih others,
        List.map_cons]

/-! ## Files -/

theorem withoutHere_eq {path : List Char} (notHere : ¬ "./".toList <+: path) :
    withoutHere path = path := by
  unfold withoutHere
  split
  · exact absurd ⟨_, rfl⟩ notHere
  · rfl

/-- Blocks of acceptable paths are inserted as files. -/
theorem foldl_add_eq (files : List (String × String)) (r : Response)
    (accepted : ∀ f ∈ files, refusal? f.1 = none ∧ ¬ "./".toList <+: f.1.toList) :
    (files.map fun f => (f.1.toList, f.2)).foldl add r =
      { r with
        role := files.foldl (fun role (path, content) => role.insert path content) r.role } := by
  induction files generalizing r with
  | nil => rfl
  | cons file files ih =>
      obtain ⟨path, content⟩ := file
      obtain ⟨⟨passes, notHere⟩, others⟩ := List.forall_mem_cons.mp accepted
      have added :
          add r (path.toList, content) = { r with role := r.role.insert path content } := by
        rw [add]
        dsimp only
        rw [withoutHere_eq notHere, String.ofList_toList, passes]
      rw [List.map_cons, List.foldl_cons, added, ih _ others, List.foldl_cons]

/-- Blocks of acceptable paths, each path once and none taken, are the files of a response. -/
theorem foldl_add (files : List (String × String)) (r : Response)
    (accepted : ∀ f ∈ files, refusal? f.1 = none ∧ ¬ "./".toList <+: f.1.toList)
    (distinct : (files.map (·.1)).Nodup) (fresh : ∀ f ∈ files, f.1 ∉ r.role.paths) :
    let s := (files.map fun f => (f.1.toList, f.2)).foldl add r
    s.defects = r.defects ∧ s.role.files.Perm (files ++ r.role.files) := by
  rw [foldl_add_eq files r accepted]
  exact ⟨rfl, Role.foldl_insert_perm files r.role distinct fresh⟩

/-- Parsing an answer of files gives the files, and no defects. -/
theorem parse_answer {files : List FencedFile} {epilogue : List (List Char)}
    (nonempty : files ≠ [])
    (wellFormed : ∀ f ∈ files, f.IsWellFormed) (distinct : (files.map (·.path)).Nodup)
    (prose : ∀ row ∈ epilogue, IsProse row) :
    (parse (answer files epilogue)).defects = [] ∧
      (parse (answer files epilogue)).role.files.Perm (files.map fun f => (f.path, f.trimmed)) := by
  have blocks := pathBlocks_answer nonempty wellFormed prose
  obtain ⟨defects, perm⟩ := foldl_add (files.map fun f => (f.path, f.trimmed)) ⟨Role.empty, []⟩
    (List.forall_mem_map.mpr fun f member =>
      ⟨(wellFormed f member).accepted, (wellFormed f member).notHere⟩)
    (by rwa [List.map_map]) fun _ _ => List.not_mem_nil
  have same : named (answer files epilogue) =
      ((files.map fun f => (f.path, f.trimmed)).map fun f => (f.1.toList, f.2)).foldl add
        ⟨Role.empty, []⟩ := by
    rw [named, blocks, List.map_map]
    rfl
  rw [← same] at defects perm
  rw [Role.empty, List.append_nil] at perm
  have full : (named (answer files epilogue)).role.isEmpty = false := by
    have length := perm.length_eq
    rw [List.length_map] at length
    rw [Role.isEmpty, Bool.eq_false_iff, Ne, List.isEmpty_iff]
    intro none
    rw [none] at length
    exact nonempty (List.length_eq_zero_iff.mp length.symm)
  have kept : found (answer files epilogue) = named (answer files epilogue) := by
    rw [found, full]
    rfl
  rw [defects_parse, role_parse, kept, full, defects]
  exact ⟨rfl, perm⟩

/-- The files of an answer whose contents speak of fences, with a heading between them. -/
theorem parse_answer_of_quoted_fences :
    let files : List FencedFile := [
      ⟨["Here is the role.".toList], "yaml".toList, "tasks/main.yml",
        "- debug:\n    msg: \x60\x60\x60quoted\x60\x60\x60\n \n\n"⟩,
      ⟨[[], "# Handlers".toList], [], "README.md",
        "\x60\x60\x60yaml path=tasks/main.yml\nname: web\n \x60\x60\x60"⟩]
    let trimmed := [
      ("tasks/main.yml", "- debug:\n    msg: \x60\x60\x60quoted\x60\x60\x60\n"),
      ("README.md", "\x60\x60\x60yaml path=tasks/main.yml\nname: web\n \x60\x60\x60\n")]
    let text := answer files ["Done.".toList]
    files ≠ [] ∧ (∀ f ∈ files, f.IsWellFormed) ∧ (files.map (·.path)).Nodup ∧
      (∀ row ∈ ["Done.".toList], IsProse row) ∧ (parse text).defects = [] ∧
      (parse text).role.files.Perm trimmed := by
  intro files trimmed text
  have wellFormed : ∀ f ∈ files, f.IsWellFormed := by decide +kernel
  have distinct : (files.map (·.path)).Nodup := by decide +kernel
  have prose : ∀ row ∈ ["Done.".toList], IsProse row := by decide +kernel
  have same : (files.map fun f => (f.path, f.trimmed)) = trimmed := by decide +kernel
  obtain ⟨defects, perm⟩ := parse_answer (List.cons_ne_nil _ _) wellFormed distinct prose
  exact ⟨List.cons_ne_nil _ _, wellFormed, distinct, prose, defects, same ▸ perm⟩

end Response

end Rolewright
