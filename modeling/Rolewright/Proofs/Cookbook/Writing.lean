/-
# Metadata written and read back

A metadata file with one row for each field, each dependency and each platform. The texts of a row
stand between quotes that do not occur in them, but the reader ends a text at the first quote of
either kind. So a field is read up to there (`fields_parse_written`), and the metadata are read back
exactly if none of their texts holds a quote (`parse_written_iff`).

What a reader makes of a row does not depend on the rows around it (`Tells`), so what it makes of
all of them is what each row tells (`lineMatches_rows`).
-/

import Rolewright.Cookbook.Metadata
import Rolewright.Proofs.Recipe.Listing

namespace Rolewright

/-! ## The first line of a text -/

namespace Text

variable {content row : List Char} {rest : List (List Char)}

/-- Behind a line stands the end of the text, or a break and the other lines. -/
theorem exists_of_lines_eq_cons (laid : lines content = row :: rest) :
    ∃ after, content = row ++ after ∧ (after = [] ∧ rest = [] ∨
      ∃ more, lines more = rest ∧ (after = '\n' :: more ∨ after = '\r' :: '\n' :: more)) := by
  fun_induction lines content generalizing row with
  | case1 => cases laid
  | case2 cs =>
      obtain ⟨rfl, rfl⟩ := List.cons.inj laid
      exact ⟨'\n' :: cs, rfl, .inr ⟨cs, rfl, .inl rfl⟩⟩
  | case3 cs =>
      obtain ⟨rfl, rfl⟩ := List.cons.inj laid
      exact ⟨'\r' :: '\n' :: cs, rfl, .inr ⟨cs, rfl, .inr rfl⟩⟩
  | case4 c cs _ _ none =>
      obtain ⟨rfl, rfl⟩ := List.cons.inj laid
      obtain rfl : cs = [] := by
        by_contra some
        exact lines_ne_nil some none
      exact ⟨[], rfl, .inl ⟨rfl, rfl⟩⟩
  | case5 c cs _ _ line others found ih =>
      obtain ⟨rfl, rfl⟩ := List.cons.inj laid
      obtain ⟨after, rfl, follows⟩ := ih found
      exact ⟨after, rfl, follows⟩

end Text

namespace Cookbook

open Recipe Text

variable {α : Type} {probe : List Char → Option (α × List Char)} {content text after : List Char}

/-! ## Rows -/

/-- A text on one line between quotes that do not occur in it. -/
structure Argument where
  quote : Char
  text : String
  known : quote = '\'' ∨ quote = '"'
  apart : quote ∉ text.toList
  line : '\n' ∉ text.toList

/-- The text in its quotes. -/
def Argument.code (argument : Argument) : List Char :=
  argument.quote :: (argument.text.toList ++ [argument.quote])

/-- A row of a metadata file. -/
inductive Row where
  | field (name : String) (known : name ∈ fieldNames) (value : Argument)
  | depends (name : Argument) (constraint : Option Argument)
  | supports (platform : Argument)

namespace Row

/-- The words that open a row. -/
def words : List String := "depends" :: "supports" :: fieldNames

/-- The word that opens the row. -/
def word : Row → String
  | field name _ _ => name
  | depends _ _ => "depends"
  | supports _ => "supports"

/-- What stands behind the word. -/
def arguments : Row → List Argument
  | field _ _ value => [value]
  | depends name constraint => name :: constraint.toList
  | supports platform => [platform]

/-- The arguments in their quotes. -/
def body (row : Row) : List Char :=
  List.intercalate [',', ' '] (row.arguments.map Argument.code)

/-- The row as it is written. -/
def code (row : Row) : List Char :=
  row.word.toList ++ ' ' :: row.body

/-- The value that the row gives this field. -/
def value? (name : String) : Row → Option String
  | field other _ value => if other = name then some value.text else none
  | _ => none

/-- The dependency that the row gives. -/
def dependency? : Row → Option Dependency
  | depends name constraint => some ⟨name.text, constraint.map Argument.text⟩
  | _ => none

/-- The platform that the row gives. -/
def platform? : Row → Option String
  | supports platform => some platform.text
  | _ => none

end Row

namespace Metadata

/-- The values of the fields, in the order of their names. -/
def fields (m : Metadata) : List (Option String) :=
  [m.name, m.version, m.maintainer, m.maintainerEmail, m.license, m.description]

/-- Every text of the metadata. -/
def texts (m : Metadata) : List String :=
  m.fields.flatMap Option.toList ++
    (m.dependencies.flatMap fun d => d.name :: d.constraint.toList) ++ m.supports

theorem ext_fields {m other : Metadata} (fields : m.fields = other.fields)
    (dependencies : m.dependencies = other.dependencies) (supports : m.supports = other.supports) :
    m = other := by
  cases m
  cases other
  simp_all [Metadata.fields]

/-- The rows give each field its value, if it has one, and the dependencies and platforms in their
order, none of which is empty. -/
structure IsWrittenAs (m : Metadata) (rows : List Row) : Prop where
  fields : fieldNames.map (fun name => rows.filterMap (Row.value? name)) =
    m.fields.map Option.toList
  dependencies : rows.filterMap Row.dependency? = m.dependencies
  supports : rows.filterMap Row.platform? = m.supports
  named : ∀ d ∈ m.dependencies, d.name ≠ "" ∧ d.constraint ≠ some ""
  platforms : "" ∉ m.supports

end Metadata

/-! ## Quotes -/

/-- A text without quotes of either kind. -/
def IsQuoteless (text : String) : Prop :=
  '\'' ∉ text.toList ∧ '"' ∉ text.toList

instance (text : String) : Decidable (IsQuoteless text) :=
  inferInstanceAs (Decidable (_ ∧ _))

/-- What stands before the first quote of either kind. -/
def upToQuote (text : String) : String :=
  String.ofList (text.toList.takeWhile fun c => c != '\'' && c != '"')

theorem forall_of_isQuoteless {text : String} (plain : IsQuoteless text) :
    ∀ c ∈ text.toList, (c != '\'' && c != '"') = true := by
  intro c member
  have single : c ≠ '\'' := fun same => plain.1 (same ▸ member)
  have double : c ≠ '"' := fun same => plain.2 (same ▸ member)
  simp [single, double]

theorem upToQuote_eq_self {text : String} (plain : IsQuoteless text) : upToQuote text = text := by
  rw [upToQuote, List.takeWhile_eq_self_iff.mpr (forall_of_isQuoteless plain),
    String.ofList_toList]

/-- What is read between quotes holds none. -/
theorem isQuoteless_of_looselyQuoted? {read rest : List Char}
    (found : looselyQuoted? text = some (read, rest)) : IsQuoteless (String.ofList read) := by
  unfold looselyQuoted? at found
  split at found
  · cases found
  · split at found
    · cases found
    · dsimp only at found
      split at found
      · cases found
        rw [IsQuoteless, String.toList_ofList]
        constructor <;>
          exact fun member => by simpa using List.mem_takeWhile_imp member
      · cases found

theorem takeWhile_append_stop {p : Char → Bool} {c : Char} (stops : p c = false)
    (text after : List Char) :
    (text ++ c :: after).takeWhile p = text.takeWhile p ∧
      (text ++ c :: after).drop (text.takeWhile p).length = text.dropWhile p ++ c :: after := by
  induction text with
  | nil => simp [stops]
  | cons d ds ih =>
      cases here : p d with
      | true => simpa [here] using ih
      | false => simp [here]

theorem isQuoteless_of_quotedArgument? {read rest : List Char}
    (found : quotedArgument? text = some (read, rest)) : IsQuoteless (String.ofList read) := by
  unfold quotedArgument? at found
  split at found
  · rename_i quoted
    split at found
    · cases found
    · cases found
      exact isQuoteless_of_looselyQuoted? quoted
  · cases found

namespace Argument

variable (argument : Argument)

/-- What the reader leaves of the text in its quotes. -/
def unread : List Char :=
  (argument.text.toList.dropWhile (fun c => c != '\'' && c != '"') ++ [argument.quote]).tail

theorem quote_ne {c : Char} (other : c ≠ '\'' ∧ c ≠ '"') : argument.quote ≠ c := by
  rcases argument.known with quote | quote <;> rw [quote]
  · exact other.1.symm
  · exact other.2.symm

theorem length_unread : argument.unread.length < argument.code.length := by
  have least := (List.dropWhile_suffix (l := argument.text.toList)
    fun c => c != '\'' && c != '"').length_le
  simp only [unread, code, List.length_tail, List.length_append, List.length_cons]
  omega

/-- A text in quotes is read up to its first quote. -/
theorem looselyQuoted?_code (after : List Char) :
    looselyQuoted? (argument.code ++ after) =
      some ((upToQuote argument.text).toList, argument.unread ++ after) := by
  have quote : (argument.quote != '\'' && argument.quote != '"') = false := by
    rcases argument.known with quote | quote <;> rw [quote] <;> rfl
  have whole : argument.code ++ after =
      argument.quote :: (argument.text.toList ++ argument.quote :: after) := by
    simp [code]
  obtain ⟨read, left⟩ := takeWhile_append_stop (p := fun c => c != '\'' && c != '"') quote
    argument.text.toList after
  rw [whole, looselyQuoted?, quote, read, if_neg Bool.false_ne_true]
  dsimp only
  rw [left, upToQuote, String.toList_ofList, unread]
  cases argument.text.toList.dropWhile fun c => c != '\'' && c != '"' <;> simp

theorem unread_eq_nil (plain : IsQuoteless argument.text) : argument.unread = [] := by
  rw [unread, List.dropWhile_eq_nil_iff.mpr (forall_of_isQuoteless plain)]
  rfl

end Argument

/-! ## The starts of lines -/

theorem exists_of_mem_atLineStarts {found : α} {skip : Nat} {starts : Bool}
    (member : found ∈ atLineStarts probe skip starts content) :
    ∃ text rest, probe text = some (found, rest) := by
  fun_induction atLineStarts probe skip starts content with
  | case1 => cases member
  | case2 _ _ _ _ ih | case3 _ _ ih => exact ih member
  | case4 c cs here rest probed ih =>
      rcases List.mem_cons.mp member with rfl | later
      · exact ⟨_, _, probed⟩
      · exact ih later
  | case5 _ _ _ ih => exact ih member

/-- Nothing is looked for behind the start of a line. -/
theorem atLineStarts_append (line : '\n' ∉ text) {skip : Nat} (most : skip ≤ text.length) :
    atLineStarts probe skip false (text ++ after) = atLineStarts probe 0 false after := by
  induction text generalizing skip with
  | nil =>
      obtain rfl : skip = 0 := Nat.le_zero.mp most
      rfl
  | cons c cs ih =>
      have other : (c == '\n') = false := beq_false_of_ne fun same => line (same ▸ .head _)
      have later : '\n' ∉ cs := fun member => line (.tail _ member)
      cases skip with
      | zero =>
          rw [List.cons_append, atLineStarts, other]
          exact ih later (Nat.zero_le _)
      | succ skip =>
          rw [List.cons_append, atLineStarts, other]
          exact ih later (Nat.le_of_succ_le_succ most)

/-- What a reader finds at the start of a row, whatever other rows follow it. -/
def Tells (probe : List Char → Option (α × List Char)) (row : Row) (told : Option α) : Prop :=
  ∀ after, (trimStart after).head? ≠ some ',' → ∃ rest, rest.length < row.code.length ∧
    probe (row.code ++ after) = told.map fun found => (found, rest ++ after)

section Run

variable {row : Row} {rows : List Row}

theorem Row.word_mem (row : Row) : row.word ∈ words := by
  cases row with
  | field name known _ => exact .tail _ (.tail _ known)
  | depends => exact .head _
  | supports => exact .tail _ (.head _)

theorem Row.exists_code_eq_cons (row : Row) :
    ∃ c cs, row.code = c :: cs ∧ isAsciiWord c = true ∧ '\n' ∉ c :: cs := by
  have words : ∀ word ∈ Row.words, word.toList.head?.any isAsciiWord = true ∧
      '\n' ∉ word.toList := by decide
  obtain ⟨first, line⟩ := words row.word row.word_mem
  have inside (argument : Argument) : '\n' ∉ argument.code := by
    have quote : '\n' ≠ argument.quote := (argument.quote_ne (by decide)).symm
    simp [Argument.code, quote, argument.line]
  have whole : '\n' ∉ row.code := by
    cases row with
    | field | supports => simp_all [Row.code, body, arguments, List.intercalate]
    | depends name constraint =>
        cases constraint <;> simp_all [Row.code, body, arguments, List.intercalate]
  cases spelled : row.word.toList with
  | nil =>
      rw [spelled] at first
      cases first
  | cons c cs =>
      rw [spelled] at first
      rw [Row.code, spelled] at whole ⊢
      exact ⟨c, _, rfl, first, whole⟩

theorem Row.length_code_pos (row : Row) : 0 < row.code.length := by
  rw [Row.code, List.length_append, List.length_cons]
  omega

/-- Rows begin with a word. -/
theorem head?_trimStart_rows (laid : lines content = rows.map Row.code) :
    (trimStart content).head? ≠ some ',' := by
  cases rows with
  | nil =>
      by_contra comma
      refine lines_ne_nil ?_ laid
      rintro rfl
      cases comma
  | cons row rows =>
      obtain ⟨after, rfl, -⟩ := exists_of_lines_eq_cons laid
      obtain ⟨c, cs, spelled, word, -⟩ := row.exists_code_eq_cons
      rw [spelled, List.cons_append, trimStart_cons_of_not_blank (isBlank_of_isAsciiWord word)]
      rintro comma
      cases comma
      cases word

/-- At the start of a row is found what the row tells, and nothing in the rest of it. -/
theorem atLineStarts_row {told : Option α} (tells : Tells probe row told)
    (behind : (trimStart after).head? ≠ some ',') :
    atLineStarts probe 0 true (row.code ++ after) =
      told.toList ++ atLineStarts probe 0 false after := by
  obtain ⟨rest, shorter, found⟩ := tells after behind
  obtain ⟨c, cs, spelled, -, line⟩ := row.exists_code_eq_cons
  have other : (c == '\n') = false := beq_false_of_ne fun same => line (same ▸ .head _)
  have inside : '\n' ∉ cs := fun member => line (.tail _ member)
  rw [spelled, List.cons_append] at found ⊢
  rw [atLineStarts, found, other]
  cases told with
  | none => exact atLineStarts_append inside (Nat.zero_le _)
  | some told =>
      refine congrArg (told :: ·) (atLineStarts_append inside ?_)
      simp only [List.length_append]
      omega

/-- What is found in a file is what its rows tell. -/
theorem lineMatches_rows {told : Row → Option α} (tells : ∀ row ∈ rows, Tells probe row (told row))
    (laid : lines content = rows.map Row.code) :
    lineMatches probe content = rows.filterMap told := by
  rw [lineMatches]
  induction rows generalizing content with
  | nil =>
      obtain rfl : content = [] := by
        by_contra some
        exact lines_ne_nil some laid
      rfl
  | cons row rows ih =>
      obtain ⟨here, others⟩ := List.forall_mem_cons.mp tells
      obtain ⟨after, rfl, follows⟩ := exists_of_lines_eq_cons laid
      have later : (trimStart after).head? ≠ some ',' ∧
          atLineStarts probe 0 false after = rows.filterMap told := by
        rcases follows with ⟨rfl, ends⟩ | ⟨more, behind, broken⟩
        · obtain rfl := List.map_eq_nil_iff.mp ends
          exact ⟨nofun, rfl⟩
        · have start : (trimStart more).head? ≠ some ',' := head?_trimStart_rows behind
          rcases broken with rfl | rfl <;> exact ⟨start, ih others behind⟩
      rw [atLineStarts_row here later.1, later.2]
      cases told : told row <;> simp [told]

end Run

/-! ## What is read of a row -/

section Read

variable (row : Row)

theorem Row.exists_body_eq_cons :
    ∃ (quote : Char) (cs : List Char), row.body = quote :: cs ∧ (quote = '\'' ∨ quote = '"') := by
  cases row with
  | field _ _ argument | supports argument => exact ⟨_, _, rfl, argument.known⟩
  | depends argument constraint =>
      cases constraint <;> exact ⟨_, _, rfl, argument.known⟩

theorem trimStart_row (after : List Char) : trimStart (row.code ++ after) = row.code ++ after := by
  obtain ⟨c, cs, spelled, word, -⟩ := row.exists_code_eq_cons
  rw [spelled, List.cons_append, trimStart_cons_of_not_blank (isBlank_of_isAsciiWord word)]

theorem callOf?_row (after : List Char) :
    callOf? row.word (row.code ++ after) = some (row.body ++ after) := by
  obtain ⟨quote, cs, body, known⟩ := row.exists_body_eq_cons
  have solid : isBlank quote = false ∧ quote ≠ '(' := by
    rcases known with rfl | rfl <;> decide
  have split : row.code ++ after = row.word.toList ++ (' ' :: quote :: (cs ++ after)) := by
    rw [Row.code, body, List.append_assoc]
    rfl
  have start : trimStart (' ' :: quote :: (cs ++ after)) = quote :: (cs ++ after) :=
    trimStart_cons_of_not_blank solid.1
  have bare : withoutPrefix ['('] (quote :: (cs ++ after)) = quote :: (cs ++ after) :=
    withoutPrefix_cons_eq_self (by simpa using solid.2) []
  rw [callOf?, trimStart_row, split, afterPrefix?_append, Option.map_some, start, bare,
    trimStart_cons_of_not_blank solid.1, body]
  rfl

/-- Behind another word, which the word of the row may begin with, stands no quote. -/
theorem looselyQuoted?_of_other {word : String} {after called : List Char}
    (known : word ∈ Row.words) (other : word ≠ row.word)
    (found : callOf? word (row.code ++ after) = some called) :
    looselyQuoted? called = none := by
  have words : ∀ word ∈ Row.words, word.toList.all isAsciiWord = true ∧ ' ' ∉ word.toList := by
    decide
  rw [callOf?, trimStart_row, Row.code, List.append_assoc, List.cons_append] at found
  obtain ⟨rest, prefixed, rfl⟩ := Option.map_eq_some_iff.mp found
  obtain ⟨others, longer, rfl⟩ := exists_of_afterPrefix?_append (words word known).2 prefixed
  have inner := (words row.word row.word_mem).1
  rw [longer, List.all_append] at inner
  cases others with
  | nil => exact absurd (String.toList_inj.mp (by simpa using longer.symm)) other
  | cons c cs =>
      have here : isAsciiWord c = true :=
        List.all_eq_true.mp ((Bool.and_eq_true _ _).mp inner).2 c (.head _)
      rw [List.cons_append, trimStart_cons_of_not_blank (isBlank_of_isAsciiWord here)]
      exact looselyQuoted?_word here

/-- A reader that looks for a quote behind another word reads nothing. -/
theorem bind_callOf?_of_other {β : Type} {word : String} {after : List Char}
    {read : List Char → Option β} (known : word ∈ Row.words) (other : word ≠ row.word)
    (quoted : ∀ called, looselyQuoted? called = none → read called = none) :
    (callOf? word (row.code ++ after)).bind read = none := by
  cases found : callOf? word (row.code ++ after) with
  | none => rfl
  | some called => exact quoted called (looselyQuoted?_of_other row known other found)

/-- The field that is read of a row. -/
def Row.field? : Row → Option (String × String)
  | field name _ value => some (name, upToQuote value.text)
  | _ => none

/-- A field of another name is not read of a row. -/
theorem fieldNamed_eq_none {name : String} (known : name ∈ fieldNames) (other : name ≠ row.word)
    (after : List Char) :
    (do
      let (value, rest) ← looselyQuoted? (← callOf? name (row.code ++ after))
      return ((name, String.ofList value), rest)) = none := by
  refine bind_callOf?_of_other row (.tail _ (.tail _ known)) other fun called none => ?_
  rw [none]
  rfl

/-- A field is told up to the first quote of its value. -/
theorem tells_field : Tells Cookbook.field? row row.field? := by
  intro after _
  have others := fun name (known : name ∈ fieldNames) other =>
    fieldNamed_eq_none row known other after
  cases row with
  | field name known value =>
      have body : Row.body (.field name known value) = value.code := by
        simp [Row.body, Row.arguments, List.intercalate]
      have called : callOf? name (Row.code (.field name known value) ++ after) =
          some (value.code ++ after) := by
        rw [← body]
        exact callOf?_row (.field name known value) after
      have length : value.unread.length < (Row.code (.field name known value)).length := by
        have shorter := value.length_unread
        rw [Row.code, body, List.length_append, List.length_cons]
        omega
      refine ⟨value.unread, length, ?_⟩
      rw [Cookbook.field?, findSome?_eq_of_unique known others, called]
      simp [value.looselyQuoted?_code, Row.field?]
  | depends | supports =>
      have fresh : "depends" ∉ fieldNames ∧ "supports" ∉ fieldNames := by decide
      refine ⟨[], Row.length_code_pos _, List.findSome?_eq_none_iff.mpr fun name known => ?_⟩
      refine others name known ?_
      rintro rfl
      first | exact fresh.1 known | exact fresh.2 known

/-- A text that is quoted is read as a whole, if it is not empty and holds no quote. -/
theorem quotedArgument?_code {argument : Argument} (some : argument.text ≠ "")
    (plain : IsQuoteless argument.text) (after : List Char) :
    quotedArgument? (argument.code ++ after) = .some (argument.text.toList, after) := by
  have nonempty : argument.text.toList.isEmpty = false := by simpa using some
  rw [quotedArgument?, argument.looselyQuoted?_code, upToQuote_eq_self plain,
    argument.unread_eq_nil plain]
  simp [nonempty]

/-- A platform is told as it is written, if it is not empty and holds no quote. -/
theorem tells_platform (plain : ∀ name ∈ row.platform?, name ≠ "" ∧ IsQuoteless name) :
    Tells Cookbook.platform? row row.platform? := by
  intro after _
  refine ⟨[], row.length_code_pos, ?_⟩
  cases row with
  | field name known _ =>
      have other : "supports" ≠ name := by
        rintro rfl
        exact absurd known (by decide)
      exact bind_callOf?_of_other _ (.tail _ (.head _)) other fun called none => by
        simp [quotedArgument?, none]
  | depends =>
      have other : "supports" ≠ "depends" := by decide
      exact bind_callOf?_of_other _ (.tail _ (.head _)) other fun called none => by
        simp [quotedArgument?, none]
  | supports platform =>
      obtain ⟨some, plain⟩ := plain platform.text rfl
      have called := callOf?_row (.supports platform) after
      have body : Row.body (.supports platform) = platform.code := by
        simp [Row.body, Row.arguments, List.intercalate]
      rw [body] at called
      rw [Cookbook.platform?, ← Row.word, called]
      simp [quotedArgument?_code some plain, Row.platform?]

/-- A dependency is told as it is written, if its texts are not empty and hold no quote. -/
theorem tells_dependency
    (plain : ∀ d ∈ row.dependency?, ∀ text ∈ d.name :: d.constraint.toList, text ≠ "" ∧
      IsQuoteless text) :
    Tells Cookbook.dependency? row row.dependency? := by
  intro after behind
  refine ⟨[], row.length_code_pos, ?_⟩
  cases row with
  | field name known _ =>
      have other : "depends" ≠ name := by
        rintro rfl
        exact absurd known (by decide)
      exact bind_callOf?_of_other _ (.head _) other fun called none => by
        simp [quotedArgument?, none]
  | supports =>
      have other : "depends" ≠ "supports" := by decide
      exact bind_callOf?_of_other _ (.head _) other fun called none => by
        simp [quotedArgument?, none]
  | depends name constraint =>
      have texts := plain ⟨name.text, constraint.map Argument.text⟩ rfl
      obtain ⟨some, quoteless⟩ := texts name.text (.head _)
      have called := callOf?_row (.depends name constraint) after
      rw [Cookbook.dependency?]
      cases constraint with
      | none =>
          have body : Row.body (.depends name none) ++ after = name.code ++ after := by
            simp [Row.body, Row.arguments, List.intercalate]
          rw [Row.word, body] at called
          rw [called]
          simp [quotedArgument?_code some quoteless, afterPrefix?_cons_eq_none behind,
            Row.dependency?]
      | some constraint =>
          have body : Row.body (.depends name (.some constraint)) ++ after =
              name.code ++ ([','] ++ ' ' :: (constraint.code ++ after)) := by
            simp [Row.body, Row.arguments, List.intercalate]
          have comma (cs : List Char) : trimStart ([','] ++ cs) = [','] ++ cs := rfl
          have blank : trimStart (' ' :: (constraint.code ++ after)) =
              constraint.code ++ after := by
            rcases constraint.known with quote | quote <;> rw [Argument.code, quote] <;> rfl
          obtain ⟨some', quoteless'⟩ := texts constraint.text (.tail _ (.head _))
          rw [Row.word, body] at called
          rw [called]
          simp only [Option.bind_eq_bind, Option.bind_some, quotedArgument?_code some quoteless,
            comma, afterPrefix?_append, blank, quotedArgument?_code some' quoteless']
          simp [Row.dependency?]

end Read

/-! ## What is read of a file -/

theorem isQuoteless_of_field? {entry : String × String}
    (found : Cookbook.field? text = some (entry, after)) : IsQuoteless entry.2 := by
  obtain ⟨other, -, found⟩ := List.exists_of_findSome?_eq_some found
  obtain ⟨called, -, found⟩ := Option.bind_eq_some_iff.mp found
  obtain ⟨⟨read, left⟩, found, same⟩ := Option.bind_eq_some_iff.mp found
  cases same
  exact isQuoteless_of_looselyQuoted? found

theorem isQuoteless_of_dependency? {d : Dependency}
    (found : Cookbook.dependency? text = some (d, after)) {string : String}
    (inside : string ∈ d.name :: d.constraint.toList) : IsQuoteless string := by
  obtain ⟨called, -, found⟩ := Option.bind_eq_some_iff.mp found
  obtain ⟨⟨read, left⟩, named, found⟩ := Option.bind_eq_some_iff.mp found
  dsimp only at found
  split at found
  · rename_i constraint _ bound
    obtain ⟨more, -, bound⟩ := Option.bind_eq_some_iff.mp bound
    cases found
    rcases List.mem_cons.mp inside with rfl | inside
    · exact isQuoteless_of_quotedArgument? named
    · cases Option.mem_toList.mp inside
      exact isQuoteless_of_quotedArgument? bound
  · cases found
    obtain rfl := List.mem_singleton.mp inside
    exact isQuoteless_of_quotedArgument? named

theorem isQuoteless_of_platform? {platform : String}
    (found : Cookbook.platform? text = some (platform, after)) : IsQuoteless platform := by
  obtain ⟨called, -, found⟩ := Option.bind_eq_some_iff.mp found
  obtain ⟨⟨read, left⟩, found, same⟩ := Option.bind_eq_some_iff.mp found
  cases same
  exact isQuoteless_of_quotedArgument? found

/-- No text that is read from a metadata file holds a quote. -/
theorem isQuoteless_of_mem_texts_parse {string : String}
    (member : string ∈ (Metadata.parse content).texts) : IsQuoteless string := by
  rcases List.mem_append.mp member with member | platform
  · rcases List.mem_append.mp member with field | dependency
    · obtain ⟨value, among, inside⟩ := List.mem_flatMap.mp field
      obtain ⟨name, -, rfl⟩ : ∃ name ∈ fieldNames,
          Entries.get? (lineMatches Cookbook.field? content) name = value := List.mem_map.mp among
      have entry := Entries.mem_of_get? (Option.mem_toList.mp inside)
      obtain ⟨text, rest, found⟩ := exists_of_mem_atLineStarts entry
      exact isQuoteless_of_field? found
    · obtain ⟨d, among, inside⟩ := List.mem_flatMap.mp dependency
      obtain ⟨text, rest, found⟩ := exists_of_mem_atLineStarts among
      exact isQuoteless_of_dependency? found inside
  · obtain ⟨text, rest, found⟩ := exists_of_mem_atLineStarts platform
    exact isQuoteless_of_platform? found

section File

variable {m : Metadata} {rows : List Row}

theorem get?_filterMap_field (rows : List Row) (name : String) :
    Entries.get? (rows.filterMap Row.field?) name =
      (rows.filterMap (Row.value? name)).head?.map upToQuote := by
  induction rows with
  | nil => rfl
  | cons row rows ih =>
      cases row with
      | depends | supports => exact ih
      | field other known value =>
          by_cases same : other = name
          · simp [Row.field?, Row.value?, Entries.get?, same]
          · simpa [Row.field?, Row.value?, Entries.get?, same] using ih

variable (written : m.IsWrittenAs rows) (laid : lines content = rows.map Row.code)

include written laid

/-- Each field is read up to the first quote in its value. -/
theorem fields_parse_written :
    (Metadata.parse content).fields = m.fields.map (Option.map upToQuote) := by
  have read : (Metadata.parse content).fields =
      fieldNames.map (Entries.get? (lineMatches Cookbook.field? content)) := rfl
  have values : fieldNames.map (fun name => (rows.filterMap (Row.value? name)).head?) =
      m.fields := by
    have values := congrArg (List.map List.head?) written.fields
    simpa [Function.comp_def] using values
  rw [read, lineMatches_rows (fun row _ => tells_field row) laid, ← values, List.map_map]
  exact List.map_congr_left fun name _ => get?_filterMap_field rows name

/-- The metadata are read back exactly if none of their texts holds a quote of either kind. -/
theorem parse_written_iff :
    Metadata.parse content = m ↔ ∀ text ∈ m.texts, IsQuoteless text := by
  constructor
  · rintro rfl text member
    exact isQuoteless_of_mem_texts_parse member
  · intro plain
    have fields : (Metadata.parse content).fields = m.fields := by
      rw [fields_parse_written written laid]
      refine (List.map_congr_left fun value member => ?_).trans (List.map_id _)
      cases value with
      | none => rfl
      | some text =>
          have inside : text ∈ m.texts :=
            List.mem_append_left _ (List.mem_append_left _ (List.mem_flatMap.mpr
              ⟨_, member, .head _⟩))
          exact congrArg some (upToQuote_eq_self (plain text inside))
    have dependencies : (Metadata.parse content).dependencies = m.dependencies := by
      rw [← written.dependencies]
      refine lineMatches_rows (fun row among => tells_dependency row ?_) laid
      intro d told text inside
      have member : d ∈ m.dependencies :=
        written.dependencies ▸ List.mem_filterMap.mpr ⟨row, among, told⟩
      refine ⟨?_, plain text ?_⟩
      · obtain ⟨named, constrained⟩ := written.named d member
        rcases List.mem_cons.mp inside with rfl | constraint
        · exact named
        · rintro rfl
          exact constrained (Option.mem_toList.mp constraint)
      · exact List.mem_append_left _ (List.mem_append_right _ (List.mem_flatMap.mpr
          ⟨d, member, inside⟩))
    have supports : (Metadata.parse content).supports = m.supports := by
      rw [← written.supports]
      refine lineMatches_rows (fun row among => tells_platform row ?_) laid
      intro name told
      have member : name ∈ m.supports :=
        written.supports ▸ List.mem_filterMap.mpr ⟨row, among, told⟩
      refine ⟨?_, plain name (List.mem_append_right _ member)⟩
      rintro rfl
      exact written.platforms member
    exact Metadata.ext_fields fields dependencies supports

end File

/-- Rows in both kinds of quotes, a line break of two characters, and none at the end. -/
theorem parse_written_webserver :
    Metadata.parse ("name 'webserver'\r\ndepends \"apt\"\nversion \"1.2.0\"\n" ++
        "depends 'nginx', \"~> 8.0\"\nsupports 'ubuntu'").toList =
      ⟨some "webserver", some "1.2.0", none, none, none, none,
        [⟨"apt", none⟩, ⟨"nginx", some "~> 8.0"⟩], ["ubuntu"]⟩ := by
  let rows : List Row := [
    .field "name" (by decide) ⟨'\'', "webserver", .inl rfl, by decide, by decide⟩,
    .depends ⟨'"', "apt", .inr rfl, by decide, by decide⟩ none,
    .field "version" (by decide) ⟨'"', "1.2.0", .inr rfl, by decide, by decide⟩,
    .depends ⟨'\'', "nginx", .inl rfl, by decide, by decide⟩
      (some ⟨'"', "~> 8.0", .inr rfl, by decide, by decide⟩),
    .supports ⟨'\'', "ubuntu", .inl rfl, by decide, by decide⟩]
  have written : Metadata.IsWrittenAs ⟨some "webserver", some "1.2.0", none, none, none, none,
      [⟨"apt", none⟩, ⟨"nginx", some "~> 8.0"⟩], ["ubuntu"]⟩ rows :=
    ⟨by decide, by decide, by decide, by decide, by decide⟩
  exact (parse_written_iff written (by decide)).mpr (by decide)

/-- A name with an apostrophe, which only fits into double quotes, is read up to the apostrophe. -/
theorem not_parse_written :
    let m : Metadata := ⟨none, none, some "O'Brien", none, none, none, [], []⟩
    let rows : List Row :=
      [.field "maintainer" (by decide) ⟨'"', "O'Brien", .inr rfl, by decide, by decide⟩]
    m.IsWrittenAs rows ∧ lines "maintainer \"O'Brien\"\n".toList = rows.map Row.code ∧
      Metadata.parse "maintainer \"O'Brien\"\n".toList ≠ m := by
  refine ⟨⟨?_, ?_, ?_, ?_, ?_⟩, ?_, ?_⟩ <;> decide

end Cookbook

end Rolewright
