/-
# Heredocs in the bodies of resources

The argument of a property is read as a heredoc where the lines of code have collected a body for
it. Two things keep them from that: what passes for an opener needs no flag and no quote, while a
line of code opens a heredoc only at one of these, and the statements of a block on one line have
no heredocs at all. `recognizesHeredocs_iff` says that there is nothing else: in the blocks of
resources all openers are read as heredocs just when each of them has a flag or a quote and stands
in a block that is spread over lines.
-/

import Mathlib.Data.List.Pairwise
import Rolewright.Proofs.Recipe.Collection
import Rolewright.Proofs.Recipe.Conditions

namespace Rolewright.Recipe

open Text

/-! ## Properties -/

/-- A statement in a body gives a property: its name, and the argument behind it. -/
structure Line.IsProperty (line : Line) (key : String) (argument : List Char) : Prop where
  ordinary : key ∉ bodyWords
  property : property? line.text = some (key, argument)

theorem leadingWord_eq_of_takeIdent {text word rest : List Char}
    (taken : takeIdent isNameStart isAsciiWord text = some (word, rest)) :
    leadingWord text = word := by
  obtain ⟨c, cs, rfl, starts, rfl, -⟩ := exists_of_takeIdent taken
  exact List.takeWhile_cons_of_pos (isAsciiWord_of_isNameStart starts)

/-- A property is an identifier with an argument behind it. -/
theorem exists_of_property? {text argument : List Char} {key : String}
    (found : property? text = some (key, argument)) :
    ∃ word rest inner, takeIdent isNameStart isAsciiWord text = some (word, rest) ∧
      argument? rest = some inner ∧ key = String.ofList word ∧ argument = trim inner := by
  unfold property? at found
  simp only [Option.bind_eq_bind, Option.bind_eq_some_iff] at found
  obtain ⟨⟨word, rest⟩, taken, inner, behind, same⟩ := found
  split at same
  · cases same
  · cases same
    exact ⟨word, rest, inner, taken, behind, rfl, rfl⟩

theorem eq_of_parenthesized? {rest argument : List Char}
    (found : parenthesized? rest = some argument) : rest = '(' :: (argument ++ [')']) := by
  unfold parenthesized? at found
  split at found
  · split at found
    · rename_i inside _ ends
      split at found
      · cases found
      · cases found
        exact congrArg ('(' :: ·) (List.isSuffixOf?_eq_some_iff_append_eq.mp ends).symm
    · cases found
  · cases found

/-- An argument stands between blanks, or between brackets that blanks may stand around. -/
theorem exists_around_of_argument? {rest inner : List Char} (found : argument? rest = some inner) :
    ∃ before after, rest = before ++ (trim inner ++ after) ∧
      (∀ c ∈ before, isBlank c = true ∨ c = '(') ∧ ∀ c ∈ after, isBlank c = true ∨ c = ')' := by
  obtain ⟨lead, tail, leads, tails, around⟩ := exists_blanks_around inner
  obtain ⟨blanks, indents, split⟩ := exists_blanks rest
  have blank {blanks : List Char} (all : isBlankText blanks = true) {c : Char}
      (member : c ∈ blanks) : isBlank c = true := List.all_eq_true.mp all c member
  unfold argument? at found
  dsimp only at found
  split at found
  · rename_i argument bracketed
    cases found
    have enclosed : inner ++ [')'] = lead ++ (trim inner ++ (tail ++ [')'])) := by
      rw [← List.append_assoc (trim inner), ← List.append_assoc lead, ← around]
    refine ⟨blanks ++ '(' :: lead, tail ++ [')'], ?_, fun c member => ?_, fun c member => ?_⟩
    · rw [split, eq_of_parenthesized? bracketed, enclosed, List.append_assoc, List.cons_append]
    · rcases List.mem_append.mp member with before | bracket
      · exact .inl (blank indents before)
      · exact (List.mem_cons.mp bracket).symm.imp_left (blank leads)
    · rcases List.mem_append.mp member with behind | bracket
      · exact .inl (blank tails behind)
      · exact .inr (List.mem_singleton.mp bracket)
  · split at found
    · cases found
    · cases found
      refine ⟨blanks ++ lead, tail, ?_, fun c member => ?_, fun c member =>
        .inl (blank tails member)⟩
      · rw [List.append_assoc, ← around, ← split]
      · exact .inl ((List.mem_append.mp member).elim (blank indents) (blank leads))

section Property

variable {line : Line} {key : String} {argument : List Char}
  (isProperty : line.IsProperty key argument)

include isProperty

namespace Line.IsProperty

theorem leadingWord_eq : leadingWord line.text = key.toList := by
  obtain ⟨word, rest, inner, taken, -, rfl, -⟩ := exists_of_property? isProperty.property
  rw [leadingWord_eq_of_takeIdent taken, String.toList_ofList]

/-- The text of a property is its name and its argument, with blanks and brackets between and
behind. -/
theorem exists_around : ∃ before after, line.text = before ++ (argument ++ after) ∧
    (∀ c ∈ before, isAsciiWord c = true ∨ isBlank c = true ∨ c = '(') ∧
      ∀ c ∈ after, isBlank c = true ∨ c = ')' := by
  obtain ⟨word, rest, inner, taken, found, -, rfl⟩ := exists_of_property? isProperty.property
  obtain ⟨split, -, chars⟩ := eq_append_of_takeIdent taken
  obtain ⟨before, after, rfl, early, late⟩ := exists_around_of_argument? found
  refine ⟨word ++ before, after, by rw [split, List.append_assoc], fun c member => ?_, late⟩
  rcases List.mem_append.mp member with inside | between
  · exact .inl ((chars c inside).elim isAsciiWord_of_isNameStart id)
  · exact .inr (early c between)

/-- A property is put into the declaration, over an older value. -/
theorem addStatement_eq (o : Origin) (d : Declaration) : o.addStatement d line =
    { d with properties := d.properties.put key (argumentValue line argument) } := by
  have other (known : String) (member : known ∈ bodyWords) : key.toList ≠ known.toList :=
    fun same => isProperty.ordinary (String.toList_inj.mp same ▸ member)
  unfold Origin.addStatement
  simp only [isProperty.leadingWord_eq, other "notifies" (by decide),
    other "subscribes" (by decide), other "only_if" (by decide), other "not_if" (by decide),
    isProperty.property]
  simp

/-- There is no opener but the argument, and nothing goes on with it. -/
theorem exists_plain_around : ∃ before after, line.text = before ++ (argument ++ after) ∧
    '<' ∉ before ∧ '<' ∉ after ∧ ∀ c ∈ after.head?, Opener.ends c = false := by
  obtain ⟨before, after, split, early, late⟩ := isProperty.exists_around
  refine ⟨before, after, split, fun member => ?_, fun member => ?_, fun c first => ?_⟩
  · exact absurd (early '<' member) (by decide)
  · exact absurd (late '<' member) (by decide)
  · rcases late c (List.mem_of_mem_head? first) with blank | rfl
    · exact Opener.ends_of_isBlank blank
    · decide

/-- With a heredoc an opener stands for the text of that. -/
theorem argumentValue_of_singleton (token : isHeredocToken argument = true) {text : List Char}
    (one : line.heredocs = [text]) :
    argumentValue line argument = .str (String.ofList text) := by
  obtain ⟨flag, quote, tag, closing, spelled⟩ := Heredoc.exists_isSpelled token
  obtain ⟨before, after, split, plain, -, -⟩ := isProperty.exists_plain_around
  have found : splitAtFirst? argument line.text = some (before, after) := by
    obtain ⟨c, cs, same, -⟩ := spelled.exists_tail
    rw [split, same]
    exact splitAtFirst?_append plain _ after
  rw [argumentValue, heredocValue?, spelled.isSolid.trim_eq, token]
  simp [found, countOpeners_of_not_mem plain, one]

end Line.IsProperty

end Property

/-- Without a heredoc an opener stands for itself. -/
theorem argumentValue_of_nil {line : Line} {argument : List Char}
    (token : isHeredocToken argument = true) (none : line.heredocs = []) :
    argumentValue line argument = .raw (String.ofList argument) := by
  have nothing : heredocValue? line argument = Option.none := by
    unfold heredocValue?
    dsimp only
    split
    · rw [none]
      cases splitAtFirst? (trim argument) line.text <;> rfl
    · rfl
  rw [argumentValue, nothing, Option.getD_none, Value.parse_token token]

/-! ## Properties in the bodies of resources -/

/-- What stands in the block of a resource. -/
def Site.body : Site → List Node
  | .short _ _ _ => []
  | .oneLine line inline _ _ => (Origin.inlineStatements line inline.body).map .statement
  | .spread block _ _ => block.children

/-- The block of a resource is spread over lines. -/
def Site.IsSpread : Site → Prop
  | .spread _ _ _ => True
  | _ => False

/-- The heredoc that an opener asks for. -/
def Heredoc.asked? (argument : List Char) : Option Heredoc :=
  (opener? argument).map fun (flag, _, tag, _) => ⟨tag, flag == some '~'⟩

/-- What the rows of a body are read as. -/
def Heredoc.text (heredoc : Heredoc) (body : List (List Char)) : List Char :=
  if heredoc.squiggly then dedent body else unlines body

/-- Rows with an opener in one of them, the rows of the body, and what follows these: nothing, or a
row that is the tag, and more. -/
structure IsHeredocAt (rows : List (List Char)) (argument tag : List Char)
    (early : List (List Char)) (opening : List Char) (body rest : List (List Char)) : Prop where
  split : rows = early ++ opening :: (body ++ rest)
  opens : argument <:+: opening
  inside : ∀ row ∈ body, trim row ≠ tag
  ends : ∀ row ∈ rest.head?, trim row = tag

/-- A logical line has one heredoc and stands on some rows, on which no other line does. -/
structure Line.Collects (source : List Char) (line : Line) (text : List Char) (first last : Nat) :
    Prop where
  member : line ∈ Line.ofSource source
  heredocs : line.heredocs = [text]
  first_le : line.first ≤ first
  le_last : last ≤ line.last
  alone : ∀ other ∈ Line.ofSource source, ∀ row, first ≤ row → row ≤ last → other.first ≤ row →
    row ≤ other.last → other = line

section Recognition

variable (file : String) (types : List String) (source : List Char)

/-- A statement in the body of a resource gives a property a value, which the resource is declared
with unless a later statement changes the property. -/
structure GivesValue (path : List Enclosure) (site : Site) (line : Line) (key : String)
    (value : Value) : Prop where
  sets : ∀ d, (Origin.addStatement ⟨file, types, lines source⟩ d line).properties.get? key =
    some value
  declared : site.declaration ⟨file, types, lines source⟩ (keptConditions path site) ∈
    (SourceFile.extract file types source).declarations
  stays : ∀ before after, site.body = before ++ .statement line :: after →
    (∀ node ∈ after, ∀ d, (Origin.addNode ⟨file, types, lines source⟩ d node).properties.get? key =
      d.properties.get? key) →
    (site.declaration ⟨file, types, lines source⟩ (keptConditions path site)).properties.get? key =
      some value

/-- The argument of a property is read as a heredoc: the rows from its opener to the terminator are
collected, and the text of the body is the value. -/
inductive ReadsHeredoc (path : List Enclosure) (site : Site) (line : Line) (key : String)
    (argument : List Char) : Prop where
  | intro {heredoc : Heredoc} {early : List (List Char)} {opening : List Char}
      {body rest : List (List Char)} {logical : Line}
      (asked : Heredoc.asked? argument = some heredoc)
      (rows : IsHeredocAt (lines source) argument heredoc.tag early opening body rest)
      (collects : logical.Collects source (heredoc.text body) (early.length + 1)
        (early.length + 1 + body.length + (rest.take 1).length))
      (here : logical.first = line.first ∧ logical.last = line.last)
      (gives : GivesValue file types source path site line key
        (.str (String.ofList (heredoc.text body))))

/-- Whatever passes for a heredoc opener as the argument of a property in the block of a resource is
read as a heredoc. -/
def RecognizesHeredocs : Prop :=
  ∀ path site, IsPlace ⟨file, types, lines source⟩ source path site →
    ∀ line, .statement line ∈ site.body → ∀ key argument, line.IsProperty key argument →
      isHeredocToken argument = true → ReadsHeredoc file types source path site line key argument

end Recognition

/-! ## What is declared -/

section Place

variable {o : Origin} {source : List Char} {path : List Enclosure} {site : Site} {line : Line}

theorem Line.Declares.not_isSpread (declares : line.Declares o path site) : ¬ site.IsSpread := by
  induction declares with
  | statement | inline => exact id
  | loop _ _ _ _ ih => exact ih

/-- Going into blocks, a statement in the body of a nested resource is met. -/
theorem Node.Nests.reaches {node : Node} (nests : node.Nests o path site)
    (member : .statement line ∈ site.body) : node.Reaches (fun _ => True) (.statement line) := by
  induction nests with
  | self found => exact .inside trivial member (.self _)
  | inside found child deeper ih => exact .inside trivial child (ih member)

/-- So is one in the body of a resource that is spread over lines. -/
theorem Node.Declares.reaches {node : Node} (declares : node.Declares o path site)
    (spread : site.IsSpread) (member : .statement line ∈ site.body) :
    node.Reaches (fun _ => True) (.statement line) := by
  induction declares with
  | statement inside => exact absurd spread inside.not_isSpread
  | self found => exact .inside trivial member (.self _)
  | body found child nested => exact .inside trivial child (nested.reaches member)
  | arm plain among child inside ih =>
      have held := List.mem_flatMap.mpr ⟨_, (List.of_mem_zip among).2, child⟩
      exact .inside trivial held (ih spread member)

/-- A statement in the block of a resource that is spread over lines is a logical line. -/
theorem IsPlace.mem_ofSource (place : IsPlace o source path site) (spread : site.IsSpread)
    (member : .statement line ∈ site.body) : line ∈ Line.ofSource source := by
  obtain ⟨node, among, declares⟩ := place
  obtain ⟨-, part, consecutive, areOf⟩ :=
    exists_lines_of_reaches among (declares.reaches spread member)
  exact consecutive.subset (mem_of_whole_mem areOf (.head _))

/-- A statement in a block on one line has no heredoc. -/
theorem heredocs_of_not_isSpread (other : ¬ site.IsSpread) (member : .statement line ∈ site.body) :
    line.heredocs = [] := by
  cases site with
  | short => cases member
  | spread => exact absurd trivial other
  | oneLine whole inline =>
      obtain ⟨part, among, same⟩ := List.mem_map.mp member
      obtain ⟨text, -, rfl⟩ := List.mem_map.mp among
      cases same
      rfl

/-- A declaration is read off the statements of its body one after the other. -/
theorem exists_declaration_eq (o : Origin) (guards : List Guard) (site : Site) :
    ∃ d, site.declaration o guards = site.body.foldl o.addNode d := by
  cases site with
  | short line type argument => exact ⟨o.shortDeclaration line type argument guards, rfl⟩
  | spread block type argument => exact ⟨_, rfl⟩
  | oneLine line inline type argument =>
      exact ⟨_, (List.foldl_map (f := Node.statement) (g := o.addNode)).symm⟩

/-- The resource of a place is among what is declared. -/
theorem IsPlace.declared {file : String} {types : List String}
    (place : IsPlace ⟨file, types, lines source⟩ source path site) :
    site.declaration ⟨file, types, lines source⟩ (keptConditions path site) ∈
      (SourceFile.extract file types source).declarations := by
  have inside (finding : Finding) (member : finding ∈ findingsOf file types source) :
      finding.IsInside (lines source) := (finding_stands member).1
  obtain ⟨node, among, declares⟩ := place
  have found : .declared (site.declaration ⟨file, types, lines source⟩ (keptConditions path site)) ∈
      Origin.nodeFindings ⟨file, types, lines source⟩ [] node :=
    Origin.declared_mem_nodeFindings_iff.mpr ⟨path, site, declares, rfl⟩
  have kept := (keeps_extract inside).1 _ (Origin.mem_nodesFindings.mpr ⟨node, among, found⟩)
  exact kept

end Place

/-! ## What is recognized -/

section Recognized

variable {file : String} {types : List String} {source : List Char} {path : List Enclosure}
  {site : Site} {line : Line} {key : String} {argument : List Char}

/-- Statements that leave a property alone leave it so one after the other. -/
theorem get?_foldl_addNode {o : Origin} {nodes : List Node}
    (leave : ∀ node ∈ nodes, ∀ d, (o.addNode d node).properties.get? key = d.properties.get? key)
    (d : Declaration) : (nodes.foldl o.addNode d).properties.get? key = d.properties.get? key := by
  induction nodes generalizing d with
  | nil => rfl
  | cons node nodes ih =>
      obtain ⟨here, later⟩ := List.forall_mem_cons.mp leave
      rw [List.foldl_cons, ih later, here]

theorem givesValue (place : IsPlace ⟨file, types, lines source⟩ source path site)
    (isProperty : line.IsProperty key argument) :
    GivesValue file types source path site line key (argumentValue line argument) := by
  have sets (d : Declaration) :
      (Origin.addStatement ⟨file, types, lines source⟩ d line).properties.get? key =
        some (argumentValue line argument) := by
    rw [isProperty.addStatement_eq]
    exact (Entries.get?_put ..).trans (if_pos rfl)
  refine ⟨sets, place.declared, fun before after split leave => ?_⟩
  obtain ⟨start, whole⟩ :=
    exists_declaration_eq ⟨file, types, lines source⟩ (keptConditions path site) site
  rw [whole, split, List.foldl_append, List.foldl_cons, get?_foldl_addNode leave]
  exact sets _

/-- Of two logical lines on one row one is the other. -/
theorem eq_of_overlap {other : Line} {row : Nat} (member : line ∈ Line.ofSource source)
    (first : line.first ≤ row) (last : row ≤ line.last) (member' : other ∈ Line.ofSource source)
    (first' : other.first ≤ row) (last' : row ≤ other.last) : other = line := by
  by_contra differ
  have symm : Std.Symm fun a b : Line => a.last < b.first ∨ b.last < a.first := ⟨fun _ _ => Or.symm⟩
  have apart := (Line.pairwise_ofSource source).imp
    (S := fun a b : Line => a.last < b.first ∨ b.last < a.first) .inl
  rcases apart.forall member' member differ with before | behind <;> omega

/-- An opener asks for a heredoc, and opens it if it has a flag or a quote. -/
theorem exists_asked (token : isHeredocToken argument = true) :
    ∃ heredoc, Heredoc.asked? argument = some heredoc ∧
      Heredoc.opened argument = if opensHeredoc argument then [heredoc] else [] := by
  obtain ⟨flag, quote, tag, closing, spelled⟩ := Heredoc.exists_isSpelled token
  have opener : Heredoc.opener? (argument ++ []) = _ := spelled.opener?_append nofun
  rw [List.append_nil] at opener
  refine ⟨⟨tag, flag == some '~'⟩, ?_, spelled.opened_self⟩
  rw [Heredoc.asked?, opener]
  rfl

/-- The line with an opener holds what this opens, and stands on the rows of that. -/
theorem exists_opening (member : line ∈ Line.ofSource source)
    (isProperty : line.IsProperty key argument) (token : isHeredocToken argument = true) :
    ∃ early opening following, lines source = early ++ opening :: following ∧
      argument <:+: opening ∧ line.first ≤ early.length + 1 ∧
      line.heredocs = (takeBodies (Heredoc.opened argument) following).1 ∧
      early.length + 1 + following.length ≤
        line.last + (takeBodies (Heredoc.opened argument) following).2.length := by
  obtain ⟨flag, quote, tag, closing, spelled⟩ := Heredoc.exists_isSpelled token
  obtain ⟨before, after, text, plain, plain', stops⟩ := isProperty.exists_plain_around
  exact exists_following member spelled text plain plain' stops

/-- The rows of a heredoc with a flag or a quote are collected by the line with the opener. -/
theorem exists_collects (member : line ∈ Line.ofSource source)
    (isProperty : line.IsProperty key argument) (token : isHeredocToken argument = true)
    (marked : opensHeredoc argument = true) :
    ∃ heredoc early opening body rest, Heredoc.asked? argument = some heredoc ∧
      IsHeredocAt (lines source) argument heredoc.tag early opening body rest ∧
      line.Collects source (heredoc.text body) (early.length + 1)
        (early.length + 1 + body.length + (rest.take 1).length) := by
  obtain ⟨heredoc, asked, opened⟩ := exists_asked token
  obtain ⟨early, opening, following, split, opens, first, heredocs, reach⟩ :=
    exists_opening member isProperty token
  rw [opened, if_pos marked] at heredocs reach
  obtain ⟨rest, rows, left, inside, ends⟩ := exists_of_takeBody heredoc.tag following
  have count : following.length = (takeBody heredoc.tag following).1.length + rest.length := by
    rw [← List.length_append, ← rows]
  have last : early.length + 1 + (takeBody heredoc.tag following).1.length +
      (rest.take 1).length ≤ line.last := by
    have taken : (takeBodies [heredoc] following).2 = rest.tail := left
    rw [taken, List.length_tail] at reach
    rw [List.length_take]
    omega
  refine ⟨heredoc, early, opening, (takeBody heredoc.tag following).1, rest, asked, ?_, ?_⟩
  · exact ⟨split.trans (congrArg (early ++ opening :: ·) rows), opens, inside, ends⟩
  · refine ⟨member, heredocs, first, last, fun other member' row low high first' last' => ?_⟩
    exact eq_of_overlap member (Nat.le_trans first low) (Nat.le_trans high last) member' first'
      last'

/-- Without a flag and a quote nothing is collected. -/
theorem heredocs_eq_nil (member : line ∈ Line.ofSource source)
    (isProperty : line.IsProperty key argument) (token : isHeredocToken argument = true)
    (bare : opensHeredoc argument = false) : line.heredocs = [] := by
  obtain ⟨heredoc, -, opened⟩ := exists_asked token
  obtain ⟨early, opening, following, -, -, -, heredocs, -⟩ :=
    exists_opening member isProperty token
  rw [heredocs, opened, bare]
  rfl

/-- An opener is read as a heredoc just when the block of the resource is spread over lines and the
opener has a flag or a quote. -/
theorem readsHeredoc_iff (place : IsPlace ⟨file, types, lines source⟩ source path site)
    (member : .statement line ∈ site.body) (isProperty : line.IsProperty key argument)
    (token : isHeredocToken argument = true) :
    ReadsHeredoc file types source path site line key argument ↔
      site.IsSpread ∧ opensHeredoc argument = true := by
  have gives := givesValue place isProperty
  constructor
  · rintro ⟨-, -, -, -, read⟩
    have held : line.heredocs ≠ [] := by
      intro none
      rw [argumentValue_of_nil token none] at gives
      have d : Declaration := site.declaration ⟨file, types, lines source⟩ []
      cases (gives.sets d).symm.trans (read.sets d)
    have spread : site.IsSpread :=
      by_contra fun other => held (heredocs_of_not_isSpread other member)
    refine ⟨spread, by_contra fun bare => held ?_⟩
    exact heredocs_eq_nil (place.mem_ofSource spread member) isProperty token
      (Bool.eq_false_iff.mpr bare)
  · rintro ⟨spread, marked⟩
    obtain ⟨heredoc, early, opening, body, rest, asked, rows, collects⟩ :=
      exists_collects (place.mem_ofSource spread member) isProperty token marked
    rw [isProperty.argumentValue_of_singleton token collects.heredocs] at gives
    exact .intro asked rows collects ⟨rfl, rfl⟩ gives

end Recognized

/-- Whatever passes for a heredoc opener is read as one just where all of them have a flag or a
quote and no such property stands in a block on one line. -/
theorem recognizesHeredocs_iff (file : String) (types : List String) (source : List Char) :
    RecognizesHeredocs file types source ↔
      ∀ path site, IsPlace ⟨file, types, lines source⟩ source path site →
        ∀ line, .statement line ∈ site.body → ∀ key argument, line.IsProperty key argument →
          isHeredocToken argument = true → site.IsSpread ∧ opensHeredoc argument = true := by
  constructor
  · intro recognizes path site place line member key argument isProperty token
    exact (readsHeredoc_iff place member isProperty token).mp
      (recognizes path site place line member key argument isProperty token)
  · intro marked path site place line member key argument isProperty token
    exact (readsHeredoc_iff place member isProperty token).mpr
      (marked path site place line member key argument isProperty token)

/-! ## Openers that are passed over -/

/-- A resource with an opener that has neither a flag nor a quote. -/
def bareHeredoc : List Char :=
  "file '/a' do\n  content <<EOS\nhello\nEOS\nend\n".toList

/-- Its block, with a word and the tag as statements. -/
def bareBlock : Block where
  kind := .call "file '/a'".toList none
  header := ⟨"file '/a' do".toList, 1, 1, []⟩
  branches := [⟨.body, [], 1, [.statement ⟨"content <<EOS".toList, 2, 2, []⟩,
    .statement ⟨"hello".toList, 3, 3, []⟩, .statement ⟨"EOS".toList, 4, 4, []⟩]⟩]
  last := 5
  closed := true
  modifier := none

theorem ofLines_bareHeredoc : Node.ofLines (Line.ofSource bareHeredoc) = [.block bareBlock] := by
  have lines : Line.ofSource bareHeredoc =
      [⟨"file '/a' do".toList, 1, 1, []⟩, ⟨"content <<EOS".toList, 2, 2, []⟩,
        ⟨"hello".toList, 3, 3, []⟩, ⟨"EOS".toList, 4, 4, []⟩, ⟨"end".toList, 5, 5, []⟩] := by
    decide +kernel
  have opens : LineRole.ofText "file '/a' do".toList =
      .opens (.call "file '/a'".toList none) [] := by decide +kernel
  have content : LineRole.ofText "content <<EOS".toList = .statement := by decide +kernel
  have body : LineRole.ofText "hello".toList = .statement := by decide +kernel
  have tag : LineRole.ofText "EOS".toList = .statement := by decide +kernel
  have ends : LineRole.ofText "end".toList = .ends none := by decide +kernel
  rw [lines]
  simp only [Node.ofLines, List.foldl_cons, List.foldl_nil, Nesting.read, opens, content, body, tag,
    ends]
  simp [Nesting.add, OpenBlock.add, OpenBlock.close, Nesting.finish, bareBlock]

theorem isPlace_bareBlock : IsPlace ⟨"recipes/default.rb", [], lines bareHeredoc⟩ bareHeredoc []
    (.spread bareBlock "file" "'/a'".toList) := by
  have resource : Origin.topResource? bareBlock = some ("file", "'/a'".toList) := by
    decide +kernel
  refine ⟨.block bareBlock, ?_, .self resource⟩
  rw [ofLines_bareHeredoc]
  exact .head _

/-- A resource with an opener in a block on one line. -/
def oneLineHeredoc : List Char :=
  "file '/a' do content <<-EOS end\nhello\nEOS\n".toList

/-- Its line, which has the heredoc. -/
def oneLineStatement : Line :=
  ⟨"file '/a' do content <<-EOS end".toList, 1, 3, ["hello".toList]⟩

/-- Its block, which has lost it. -/
def oneLineBlock : InlineBlock where
  head := "file '/a'".toList
  params := none
  body := "content <<-EOS".toList

theorem ofLines_oneLineHeredoc :
    Node.ofLines (Line.ofSource oneLineHeredoc) = [.statement oneLineStatement] := by
  have lines : Line.ofSource oneLineHeredoc = [oneLineStatement] := by decide +kernel
  have alone : (LineRole.ofText oneLineStatement.text).standsAlone = true := by decide +kernel
  rw [lines]
  exact Node.ofLines_statements (List.forall_mem_singleton.mpr alone)

theorem isPlace_oneLineBlock :
    IsPlace ⟨"recipes/default.rb", [], lines oneLineHeredoc⟩ oneLineHeredoc []
      (.oneLine oneLineStatement oneLineBlock "file" "'/a'".toList) := by
  have whole : splitInlineBlock? (splitModifier oneLineStatement.text).1 = some oneLineBlock := by
    decide +kernel
  have once : ¬(oneLineBlock.head = "loop".toList || callsLoop oneLineBlock.head) = true := by
    decide +kernel
  have header : resourceHeader? oneLineBlock.head = some ("file", "'/a'".toList) := by
    decide +kernel
  have known : ¬nonResources.contains "file" = true := by decide +kernel
  have role : CallRole.ofHead oneLineBlock.head = .resource "file" "'/a'".toList := by
    rw [CallRole.ofHead, if_neg once, header]
    exact if_neg known
  refine ⟨.statement oneLineStatement, ?_, .statement (.inline whole role)⟩
  rw [ofLines_oneLineHeredoc]
  exact .head _

/-- The first opener is not read as a heredoc, as nothing marks it, and the second one is not, as
its block is on one line. -/
theorem not_recognizesHeredocs_bareHeredoc :
    ¬ RecognizesHeredocs "recipes/default.rb" [] bareHeredoc ∧
      ¬ RecognizesHeredocs "recipes/default.rb" [] oneLineHeredoc := by
  constructor
  · intro recognizes
    have isProperty : Line.IsProperty ⟨"content <<EOS".toList, 2, 2, []⟩ "content"
        "<<EOS".toList := ⟨by decide, by decide +kernel⟩
    have token : isHeredocToken "<<EOS".toList = true := by decide
    have read := recognizes _ _ isPlace_bareBlock _ (.head _) _ _ isProperty token
    have marked := ((readsHeredoc_iff isPlace_bareBlock (.head _) isProperty token).mp read).2
    exact absurd marked (by decide)
  · intro recognizes
    have isProperty : Line.IsProperty ⟨"content <<-EOS".toList, 1, 3, []⟩ "content"
        "<<-EOS".toList := ⟨by decide, by decide +kernel⟩
    have token : isHeredocToken "<<-EOS".toList = true := by decide
    have read := recognizes _ _ isPlace_oneLineBlock _ (.head _) _ _ isProperty token
    exact ((readsHeredoc_iff isPlace_oneLineBlock (.head _) isProperty token).mp read).1

end Rolewright.Recipe
