/-
# Heredocs

An opener `<<-TAG` or `<<~TAG`, in quotes or not, is code like any other: a row that holds it is a
statement, whatever blanks stand around it, and the rows up to the terminator are the body
(`statements_opener`). As the argument of a property it stands for that body
(`HeredocProperty.addStatement_text`).
-/

import Rolewright.Proofs.Recipe.Locality
import Rolewright.Proofs.Recipe.Rendering
import Rolewright.Proofs.Recipe.Spelling

namespace Rolewright.Recipe

open Text

/-! ## Rows between blanks -/

section Blanks

variable {row text : List Char}

/-- Blanks leave a scan as it is. -/
theorem keeps_blanks {depth : Nat} {blanks : List Char} (blank : isBlankText blanks = true) :
    Scan.Keeps depth blanks := by
  intro rest s kept later before
  induction blanks generalizing before with
  | nil => exact later before
  | cons c cs ih =>
      obtain ⟨here, others⟩ := (Bool.and_eq_true _ _).mp (List.all_cons.symm.trans blank)
      have plain : c = '?' → before.any isBlank = false :=
        fun same => absurd same (ne_of_kind here (by decide))
      rw [List.cons_append, Scan.readFrom_within_cons (ne_of_kind here (by decide)) plain,
        stepCode_of_isBlank here, ih others]
      rfl

theorem not_mem_blanks {blanks : List Char} (blank : isBlankText blanks = true) {c : Char}
    (solid : isBlank c = false) : c ∉ blanks :=
  not_mem_of_all blank solid

/-- Code that is a statement by itself, also between blanks. -/
structure IsCode (text : List Char) : Prop where
  solid : IsSolid text
  keeps : Scan.Keeps 0 text
  stops : continues text = false
  code : text.head? ≠ some '='

namespace IsCode

variable (code : IsCode (trim row))

include code

/-- A row of such code is read to its end and leaves nothing open. -/
theorem read_eq : Scan.start.read row = (.start, row) := by
  obtain ⟨before, after, blank, blank', split⟩ := exists_blanks_around row
  have keeps : Scan.Keeps 0 row := by
    rw [split]
    exact Scan.isTransparent_keeps.append (keeps_blanks blank)
      (Scan.isTransparent_keeps.append code.keeps (keeps_blanks blank'))
  have read := keeps [] .start [] (fun _ => rfl) none
  rwa [List.append_nil] at read

theorem not_documentation : "=begin".toList.isPrefixOf row = false := by
  rw [Bool.eq_false_iff]
  intro begins
  obtain ⟨rest, rfl⟩ := List.isPrefixOf_iff_prefix.mp begins
  exact code.code (head?_trim_cons (by decide) _)

/-- It is a statement by itself. -/
theorem isAlone : IsAlone row (trim row) where
  read_eq := code.read_eq
  trim_eq := rfl
  solid := code.solid
  stops := code.stops
  not_documentation := code.not_documentation

end IsCode

end Blanks

/-! ## Openers -/

/-- An opener with a flag, as it is spelled. -/
structure Opener where
  squiggly : Bool
  quote : Option Char
  tag : List Char
  quote_mem : ∀ q ∈ quote, q = '\'' ∨ q = '"'
  starts : tag.head?.any Heredoc.tagStart = true
  inner : tag.all Heredoc.tagInner = true

theorem isAsciiWord_of_tagInner {c : Char} (inner : Heredoc.tagInner c = true) :
    isAsciiWord c = true := by
  rcases (Bool.or_eq_true _ _).mp inner with either | underscore
  · rcases (Bool.or_eq_true _ _).mp either with upper | digit
    · have letter : c.isAlpha = true := (Bool.or_eq_true _ _).mpr (.inl upper)
      simp [isAsciiWord, Char.isAlphanum, letter]
    · exact isAsciiWord_of_isDigit digit
  · simp [isAsciiWord, underscore]

namespace Opener

variable (o : Opener)

def flag : Char :=
  if o.squiggly then '~' else '-'

/-- The tag, in its quotes if it has some. -/
def word : List Char :=
  o.quote.toList ++ (o.tag ++ o.quote.toList)

def text : List Char :=
  '<' :: '<' :: o.flag :: o.word

theorem flag_eq : o.flag = '~' ∨ o.flag = '-' := by
  unfold flag
  split
  · exact .inl rfl
  · exact .inr rfl

theorem all_isAsciiWord : o.tag.all isAsciiWord = true :=
  List.all_eq_true.mpr fun c member =>
    isAsciiWord_of_tagInner (List.all_eq_true.mp o.inner c member)

theorem tag_ne_nil : o.tag ≠ [] := by
  intro none
  have starts := o.starts
  rw [none] at starts
  cases starts

/-- No character but these stands in an opener. -/
theorem mem_text {c : Char} (member : c ∈ o.text) :
    isAsciiWord c = true ∨ c ∈ ['<', '~', '-', '\'', '"'] := by
  have quote (member : c ∈ o.quote.toList) : c ∈ ['<', '~', '-', '\'', '"'] := by
    rcases o.quote_mem c (Option.mem_toList.mp member) with rfl | rfl <;> decide
  simp only [text, word, List.mem_cons, List.mem_append] at member
  rcases member with rfl | rfl | rfl | before | tag | after
  · exact .inr (by decide)
  · exact .inr (by decide)
  · rcases o.flag_eq with flag | flag <;> rw [flag] <;> exact .inr (by decide)
  · exact .inr (quote before)
  · exact .inl (List.all_eq_true.mp o.all_isAsciiWord c tag)
  · exact .inr (quote after)

/-- An announcement is made of word characters, angle brackets, dashes, tildes and quotes. -/
theorem not_mem_text {c : Char} (word : isAsciiWord c = false)
    (other : c ∉ ['<', '~', '-', '\'', '"']) : c ∉ o.text := by
  intro member
  rcases o.mem_text member with inside | mark
  · exact Bool.false_ne_true (word.symm.trans inside)
  · exact other mark

/-- Characters that may stand last in an opener. -/
def ends (c : Char) : Bool :=
  Heredoc.tagInner c || c == '\'' || c == '"'

theorem isBlank_of_ends {c : Char} (last : ends c = true) : isBlank c = false := by
  simp only [ends, Bool.or_eq_true, beq_iff_eq] at last
  rcases last with (inner | rfl) | rfl
  · exact isBlank_of_isAsciiWord (isAsciiWord_of_tagInner inner)
  all_goals decide

theorem ends_of_isBlank {c : Char} (blank : isBlank c = true) : ends c = false :=
  Bool.eq_false_iff.mpr fun last => ne_of_kind blank (isBlank_of_ends last) rfl

theorem exists_last : ∃ c, o.text.getLast? = some c ∧ ends c = true := by
  rw [text, word]
  cases quote : o.quote with
  | none =>
      have last := List.getLast?_eq_some_getLast o.tag_ne_nil
      have inner : Heredoc.tagInner (o.tag.getLast o.tag_ne_nil) = true :=
        List.all_eq_true.mp o.inner _ (List.getLast_mem _)
      refine ⟨o.tag.getLast o.tag_ne_nil, by simp [List.getLast?_cons, last], ?_⟩
      rw [ends, inner]
      rfl
  | some q =>
      refine ⟨q, by simp [List.getLast?_cons], ?_⟩
      rcases o.quote_mem q quote with rfl | rfl <;> decide

theorem isSolid : IsSolid o.text where
  first := rfl
  last := by
    obtain ⟨c, last, ends⟩ := o.exists_last
    rw [last, Option.any_some, isBlank_of_ends ends]
    rfl

/-- A statement does not go on after an opener. -/
theorem isFinal : IsFinal o.text := by
  obtain ⟨c, last, closes⟩ := o.exists_last
  refine ⟨o.isSolid.last, fun mark known => ?_⟩
  have other : mark.getLast?.any (fun d => !ends d) = true :=
    (by decide : ∀ mark ∈ continuations, mark.getLast?.any (fun d => !ends d) = true) mark known
  have differ : o.text.getLast? ≠ mark.getLast? := by
    intro same
    rw [← same, last, Option.any_some, closes] at other
    cases other
  constructor
  · rintro ⟨before, split⟩
    exact differ (split ▸ getLast?_append_of_any other)
  · rintro ⟨before, rfl⟩
    exact differ (getLast?_append_of_any (p := ends) (by rw [last]; exact closes)).symm

/-! ### The opener among code -/

/-- The scan passes over an opener. -/
theorem keeps_text {depth : Nat} : Scan.Keeps depth o.text := by
  have word : Scan.Keeps depth o.word := by
    rw [Opener.word]
    cases quote : o.quote with
    | none => simpa using Scan.keeps_flat (isFlat_of_all o.all_isAsciiWord)
    | some q =>
        exact Scan.keeps_between (isPlainWithin_word (o.quote_mem q quote) o.all_isAsciiWord)
  have flagged : Scan.Keeps depth (o.flag :: o.word) := by
    rcases o.flag_eq with flag | flag <;> rw [flag] <;>
      exact Scan.keeps_cons (by decide) (by decide) rfl word
  exact Scan.keeps_cons (by decide) (by decide) rfl
    (Scan.keeps_cons (by decide) (by decide) rfl flagged)

/-- The tag is read as far as it goes. -/
theorem takeIdent_tag {more : List Char} (stops : ∀ c ∈ more.head?, Heredoc.tagInner c = false) :
    takeIdent Heredoc.tagStart Heredoc.tagInner (o.tag ++ more) = some (o.tag, more) := by
  exact takeIdent_append_of_stops (takeIdent_whole o.starts o.inner) stops

theorem optional_eq_none {p : Char → Bool} {cs : List Char}
    (other : ∀ c ∈ cs.head?, p c = false) : Heredoc.optional p cs = (none, cs) := by
  cases cs with
  | nil => rfl
  | cons c cs => exact if_neg (ne_true_of_eq_false (other c rfl))

def isQuote (c : Char) : Bool :=
  c == '\'' || c == '"'

theorem isQuote_of_mem {q : Char} (quote : q ∈ o.quote) : isQuote q = true := by
  rcases o.quote_mem q quote with rfl | rfl <;> decide

/-- What stands around a tag is read as it was written: the quote in front, -/
theorem optional_word (more : List Char) :
    Heredoc.optional isQuote (o.word ++ more) = (o.quote, o.tag ++ (o.quote.toList ++ more)) := by
  rw [word]
  cases quote : o.quote with
  | none =>
      have first : ∀ c ∈ (o.tag ++ more).head?, isQuote c = false := by
        intro c first
        have starts := o.starts
        rw [List.head?_append_of_ne_nil _ o.tag_ne_nil] at first
        rw [first, Option.any_some] at starts
        by_contra quoted
        simp only [isQuote, Bool.not_eq_false, Bool.or_eq_true, beq_iff_eq] at quoted
        rcases quoted with rfl | rfl <;> cases starts
      simpa using optional_eq_none first
  | some q =>
      simp only [Option.toList_some, List.cons_append, List.nil_append, List.append_assoc]
      exact if_pos (o.isQuote_of_mem quote)

/-- and the same quote behind it. -/
theorem optional_closing {more : List Char} (stops : ∀ c ∈ more.head?, isQuote c = false) :
    (Heredoc.optional isQuote (o.quote.toList ++ more)).2 = more := by
  cases quote : o.quote with
  | none => exact congrArg Prod.snd (optional_eq_none stops)
  | some q => exact congrArg Prod.snd (if_pos (o.isQuote_of_mem quote))

/-- An opener ends where its tag does not go on and no quote follows. -/
theorem opener?_text {more : List Char} (stops : ∀ c ∈ more.head?, ends c = false) :
    Heredoc.opener? (o.text ++ more) = some (some o.flag, o.quote, o.tag, o.text.length) := by
  have apart (c : Char) (first : c ∈ more.head?) :
      Heredoc.tagInner c = false ∧ isQuote c = false := by
    have other := stops c first
    rw [ends, Bool.or_assoc, Bool.or_eq_false_iff] at other
    exact other
  have flag : Heredoc.optional (fun c => c == '~' || c == '-') (o.flag :: (o.word ++ more)) =
      (some o.flag, o.word ++ more) := by
    rcases o.flag_eq with flag | flag <;> rw [flag] <;> rfl
  have tag : takeIdent Heredoc.tagStart Heredoc.tagInner (o.tag ++ (o.quote.toList ++ more)) =
      some (o.tag, o.quote.toList ++ more) := by
    refine o.takeIdent_tag fun c first => ?_
    cases quote : o.quote with
    | none =>
        rw [quote] at first
        exact (apart c first).1
    | some q =>
        rw [quote] at first
        obtain rfl := Option.some.inj first
        rcases o.quote_mem q quote with rfl | rfl <;> decide
  have opening := o.optional_word more
  have closing := o.optional_closing fun c first => (apart c first).2
  unfold isQuote at opening closing
  simp only [text, List.cons_append, Heredoc.opener?, flag, opening, tag, closing]
  simp
  omega

end Opener

/-! ## Rows that open a heredoc -/

namespace Heredoc

variable {row before text : List Char}

/-- A text that is skipped announces nothing of its own. -/
theorem openedAfter_append_of_length (text more : List Char) :
    openedAfter text.length (text ++ more) = openedAfter 0 more := by
  induction text with
  | nil => rfl
  | cons c cs ih => exact ih

/-- A row without an angle bracket announces no heredoc. -/
theorem opened_eq_nil (plain : '<' ∉ trim row) : opened row = [] := by
  obtain ⟨start, after, blank, blank', split⟩ := exists_blanks_around row
  refine openedAfter_of_not_mem (fun member => ?_) 0
  rw [split, List.mem_append, List.mem_append] at member
  rcases member with before | word | behind
  · exact not_mem_blanks blank (by decide) before
  · exact plain word
  · exact not_mem_blanks blank' (by decide) behind

/-- A row with one opener at its end. -/
theorem opened_eq_singleton {o : Opener} (plain : '<' ∉ before)
    (same : trim row = before ++ o.text) : opened row = [⟨o.tag, o.squiggly⟩] := by
  obtain ⟨start, after, blank, blank', split⟩ := exists_blanks_around row
  have stops : ∀ c ∈ after.head?, Opener.ends c = false := by
    intro c first
    exact Opener.ends_of_isBlank (List.all_eq_true.mp blank' c (List.mem_of_mem_head? first))
  have flag : (some o.flag == some '~') = o.squiggly := by
    rw [Opener.flag]
    cases o.squiggly <;> rfl
  have later : openedAfter (('<' :: '<' :: o.flag :: o.word).length - 1)
      ('<' :: o.flag :: o.word ++ after) = [] := by
    have reach : ('<' :: '<' :: o.flag :: o.word).length - 1 = ('<' :: o.flag :: o.word).length :=
      rfl
    rw [reach, openedAfter_append_of_length,
      openedAfter_of_not_mem (not_mem_blanks blank' (by decide))]
  have here := o.opener?_text stops
  rw [split, same, opened_append (not_mem_blanks blank (by decide)), List.append_assoc,
    opened_append plain, opened]
  rw [Opener.text, List.cons_append] at here ⊢
  rw [openedAfter, here]
  simp only [later, flag]
  rfl

end Heredoc

/-- The body ends at the first row that is the tag. -/
theorem takeBody_eq {tag row : List Char} {body : List (List Char)}
    (inside : ∀ row ∈ body, trim row ≠ tag) (ends : trim row = tag) (rest : List (List Char)) :
    takeBody tag (body ++ row :: rest) = (body, rest) := by
  induction body with
  | nil => exact if_pos ends
  | cons first body ih =>
      obtain ⟨other, inside⟩ := List.forall_mem_cons.mp inside
      rw [List.cons_append, takeBody, if_neg other, ih inside]

/-- What the rows of a body are read as. -/
def Opener.held (o : Opener) (body : List (List Char)) : List Char :=
  if o.squiggly then dedent body else unlines body

/-- A row with an opener at its end is a statement with the body of the heredoc. -/
theorem statements_opener {o : Opener} {row ending before : List Char} {body : List (List Char)}
    (code : IsCode (trim row)) (plain : '<' ∉ before) (same : trim row = before ++ o.text)
    (inside : ∀ row ∈ body, trim row ≠ o.tag) (ends : trim ending = o.tag) (number : Nat)
    (rest : List (List Char)) :
    statements number (row :: (body ++ ending :: rest)) =
      ⟨trim row, number, number + body.length + 1, [o.held body]⟩ ::
        statements (number + body.length + 2) rest := by
  have taken : takeBodies (Heredoc.opened row) (body ++ ending :: rest) =
      ([o.held body], rest) := by
    rw [Heredoc.opened_eq_singleton plain same, takeBodies, takeBody_eq inside ends]
    rfl
  have count : (body ++ ending :: rest).length - rest.length = body.length + 1 := by
    rw [List.length_append, List.length_cons]
    omega
  have next : number + 1 + (body.length + 1) = number + body.length + 2 := by omega
  rw [code.isAlone.statements_eq, taken, count, next]
  rfl

/-! ## Properties -/

/-- What begins with a character is not found before that character. -/
theorem splitAtFirst?_append {c : Char} {before : List Char} (plain : c ∉ before)
    (mark rest : List Char) :
    splitAtFirst? (c :: mark) (before ++ (c :: mark ++ rest)) = some (before, rest) := by
  induction before with
  | nil =>
      have here : afterPrefix? (c :: mark) (c :: mark ++ rest) = some rest :=
        List.isPrefixOf?_eq_some_iff_append_eq.mpr rfl
      rw [List.nil_append, List.cons_append, splitAtFirst?, ← List.cons_append, here]
  | cons d ds ih =>
      have other : d ≠ c := fun same => plain (same ▸ .head _)
      have later := ih fun member => plain (.tail _ member)
      rw [List.cons_append, splitAtFirst?, later,
        afterPrefix?_cons_eq_none (by simpa using other)]
      rfl

theorem countOpeners_of_not_mem {text : List Char} (plain : '<' ∉ text) :
    countOpeners 0 text = 0 := by
  induction text with
  | nil => rfl
  | cons c cs ih =>
      have other : c ≠ '<' := fun same => plain (same ▸ .head _)
      have none : opensHeredoc (c :: cs) = false := by
        unfold opensHeredoc
        split
        · rename_i same
          exact absurd (List.cons.inj same).1 other
        · rfl
      rw [countOpeners, none]
      exact ih fun member => plain (.tail _ member)

/-- A property with a heredoc: a word that has no other meaning in a body, and an opener. -/
structure HeredocProperty where
  key : String
  opener : Opener
  isHead : IsHead key.toList
  ordinary : key ∉ bodyWords

namespace HeredocProperty

variable (p : HeredocProperty)

def before : List Char :=
  p.key.toList ++ [' ']

def text : List Char :=
  p.before ++ p.opener.text

theorem isFlat_before : IsFlat p.before :=
  p.isHead.isFlat_append isFlat_nil

theorem not_mem_before : '<' ∉ p.before :=
  p.isFlat_before.not_mem (by decide)

/-- A property with a heredoc is its key, a blank and the announcement. -/
theorem text_eq : p.text = p.key.toList ++ ' ' :: p.opener.text := by
  rw [text, before, List.append_assoc]
  rfl

theorem leadingWord_eq : leadingWord p.text = p.key.toList := by
  rw [p.text_eq]
  exact leadingWord_append p.isHead.inner (by decide)

theorem exists_first : ∃ c, p.text.head? = some c ∧ isNameStart c = true := by
  have starts := p.isHead.starts
  rw [p.text_eq]
  cases key : p.key.toList with
  | nil =>
      rw [key] at starts
      cases starts
  | cons c cs =>
      rw [key] at starts
      exact ⟨c, rfl, starts⟩

theorem exists_last : ∃ c, p.text.getLast? = some c ∧ Opener.ends c = true := by
  obtain ⟨c, last, ends⟩ := p.opener.exists_last
  refine ⟨c, ?_, ends⟩
  rw [text, List.getLast?_append, last]
  rfl

/-- It is code that is a statement by itself. -/
theorem isCode : IsCode p.text where
  solid := by
    refine ⟨?_, ?_⟩
    · obtain ⟨c, first, starts⟩ := p.exists_first
      rw [first, Option.any_some, isBlank_of_isAsciiWord (isAsciiWord_of_isNameStart starts)]
      rfl
    · obtain ⟨c, last, ends⟩ := p.exists_last
      rw [last, Option.any_some, Opener.isBlank_of_ends ends]
      rfl
  keeps := Scan.isTransparent_keeps.append (Scan.keeps_flat p.isFlat_before) p.opener.keeps_text
  stops := continues_append p.opener.isFinal _
  code := by
    obtain ⟨c, first, starts⟩ := p.exists_first
    rw [first]
    rintro ⟨⟩
    cases starts

/-- It is a statement, for an opener neither opens a block nor assigns one. -/
theorem role : LineRole.ofText p.text = .statement := by
  obtain ⟨c, last, ends⟩ := p.exists_last
  have keyword : keywordRole? p.text = none :=
    keywordRole?_eq_none (by rw [p.leadingWord_eq]; exact p.isHead.plain)
  have other {d : Char} (differs : Opener.ends d = false) : c ≠ d := ne_of_kind ends differs
  have assigns : assignsBlock p.text = false := by
    rw [text, assignsBlock_append (p.isFlat_before.not_mem (by decide)),
      assignsBlock_of_not_mem (p.opener.not_mem_text (by decide) (by decide))]
  rw [LineRole.ofText, keyword, callBlock?_eq_none last (Opener.isBlank_of_ends ends)
    (other (by decide)) (other (by decide)), assigns]
  rfl

/-- It is read as a property whose argument is the announcement. -/
theorem property?_text : property? p.text = some (p.key, p.opener.text) := by
  have argument : argument? (' ' :: p.opener.text) = some p.opener.text := by
    have inner : trimStart (' ' :: p.opener.text) = p.opener.text := rfl
    have bare : parenthesized? p.opener.text = none := rfl
    have whole : p.opener.text.contains '\n' = false := by
      simpa using p.opener.not_mem_text (c := '\n') (by decide) (by decide)
    have some : p.opener.text.isEmpty = false := rfl
    rw [argument?, inner, bare, whole, some]
    simp
  rw [p.text_eq, property?, takeIdent_append p.isHead.starts p.isHead.inner (by decide)]
  have opens : "<<".toList.isPrefixOf p.opener.text = true := rfl
  simp only [Option.bind_eq_bind, Option.bind_some, argument, p.opener.isSolid.trim_eq, opens]
  simp

/-- The first opener behind a word stands for the first heredoc. -/
theorem argumentValue_text (first last : Nat) (body : List Char) :
    argumentValue ⟨p.text, first, last, [body]⟩ p.opener.text = .str (String.ofList body) := by
  have token : isHeredocToken p.opener.text = true := by
    have ended : ∀ c ∈ ([] : List Char).head?, Opener.ends c = false := nofun
    have opener := p.opener.opener?_text ended
    rw [List.append_nil] at opener
    rw [isHeredocToken, opener]
    exact beq_self_eq_true _
  have split : splitAtFirst? p.opener.text p.text = some (p.before, []) := by
    have found := splitAtFirst?_append p.not_mem_before ('<' :: p.opener.flag :: p.opener.word) []
    rwa [List.append_nil] at found
  have none : countOpeners 0 p.before = 0 := countOpeners_of_not_mem p.not_mem_before
  rw [argumentValue, heredocValue?, p.opener.isSolid.trim_eq, token]
  simp [split, none]

/-- In a body it is a property with the text of the heredoc. -/
theorem addStatement_text (o : Origin) (d : Declaration) (first last : Nat) (body : List Char) :
    o.addStatement d ⟨p.text, first, last, [body]⟩ =
      { d with properties := d.properties.put p.key (.str (String.ofList body)) } := by
  have other (known : String) (member : known ∈ bodyWords) : p.key.toList ≠ known.toList :=
    fun same => p.ordinary (String.toList_inj.mp same ▸ member)
  have value := p.argumentValue_text first last body
  unfold Origin.addStatement
  simp only [p.leadingWord_eq, other "notifies" (by decide), other "subscribes" (by decide),
    other "only_if" (by decide), other "not_if" (by decide), p.property?_text, value]
  simp

end HeredocProperty

end Rolewright.Recipe
