/-
# The heredoc of a statement

A statement with one heredoc opener in its text holds what the opener opens by itself, and stands
on the rows of that (`exists_following`). The statement may have been put together from several
physical lines: the opener stands whole in one of them, as there is no blank in it, and the others
open nothing.
-/

import Rolewright.Proofs.Recipe.Openers
import Rolewright.Proofs.Text.Parts

namespace Rolewright.Recipe

open Text

/-! ## What a physical line adds -/

theorem Scan.prefix_readFrom (s : Scan) (literal : Bool) (before : Option Char)
    (row : List Char) : (s.readFrom literal before row).2 <+: row := by
  induction row generalizing s literal before with
  | nil => exact List.prefix_rfl
  | cons c cs ih =>
      have kept (s : Scan) (literal : Bool) :
          c :: (s.readFrom literal (some c) cs).2 <+: c :: cs :=
        List.cons_prefix_cons.mpr ⟨rfl, ih s literal (some c)⟩
      unfold Scan.readFrom
      dsimp only
      repeat' split
      all_goals first | exact kept _ _ | exact List.nil_prefix

/-- A physical line adds a part of it to a statement, behind a gap, and opens the heredocs of that
part with the blanks around it. -/
structure Draft.Adds (d : Draft) (row gap before part after : List Char) : Prop where
  text_eq : (d.add row).1.text = d.text ++ (gap ++ part)
  gap_blank : isBlankText gap = true
  gap_ne : d.text ≠ [] → part ≠ [] → gap ≠ []
  before_blank : isBlankText before = true
  after_blank : isBlankText after = true
  code : before ++ (part ++ after) <+: row
  opened : (d.add row).2 = Heredoc.opened (before ++ (part ++ after))

theorem Draft.exists_adds (d : Draft) (row : List Char) :
    ∃ gap before part after, d.Adds row gap before part after := by
  have whole : (d.scan.read row).2 <+: row := Scan.prefix_readFrom _ _ _ row
  cases quote : d.scan.quote.isSome with
  | true =>
      refine ⟨['\n'], [], (d.scan.read row).2, [], ?_, rfl, fun _ _ => List.cons_ne_nil _ _, rfl,
        rfl, ?_, ?_⟩
      · simp [Draft.add, quote]
      · simpa using whole
      · simp [Draft.add]
  | false =>
      obtain ⟨blanks, blanks', blank, blank', split⟩ := exists_blanks_around (d.scan.read row).2
      refine ⟨if !d.text.isEmpty && !(trim (d.scan.read row).2).isEmpty then [' '] else [], blanks,
        trim (d.scan.read row).2, blanks', ?_, ?_, ?_, blank, blank', split ▸ whole, ?_⟩
      · simp [Draft.add, quote]
      · split <;> rfl
      · intro some some'
        simp [some, some']
      · rw [← split]
        rfl

section Adds

variable {d : Draft} {row gap before part after : List Char}
  (adds : d.Adds row gap before part after)

include adds

theorem Draft.Adds.opened_eq_nil (plain : '<' ∉ part) : (d.add row).2 = [] := by
  rw [adds.opened]
  refine Heredoc.openedAfter_of_not_mem (fun member => ?_) 0
  rw [List.mem_append, List.mem_append] at member
  rcases member with before | inside | after
  · exact not_mem_blanks adds.before_blank (by decide) before
  · exact plain inside
  · exact not_mem_blanks adds.after_blank (by decide) after

/-- A row that opens nothing takes no other rows. -/
theorem Draft.Adds.takeBodies_eq (plain : '<' ∉ part) (rows : List (List Char)) :
    takeBodies (d.add row).2 rows = ([], rows) := by
  rw [adds.opened_eq_nil plain]
  rfl

theorem Draft.Adds.heredocs_eq (plain : '<' ∉ part) (rows : List (List Char)) :
    (d.extend row rows).heredocs = d.heredocs := by
  change d.heredocs ++ (takeBodies (d.add row).2 rows).1 = _
  rw [adds.takeBodies_eq plain, List.append_nil]

end Adds

/-! ## The rows of a statement -/

/-- Reading a statement from a row on: the statement ends with it and the bodies behind it, or goes
on in the first row that is left. -/
inductive Takes : Draft → List Char → List (List Char) → Draft → List (List Char) → Prop where
  | last {d : Draft} {row : List Char} {rows : List (List Char)} :
      Takes d row rows (d.extend row rows) (takeBodies (d.add row).2 rows).2
  | next {d final : Draft} {row next : List Char} {rows rest left : List (List Char)}
      (leaves : (takeBodies (d.add row).2 rows).2 = next :: rest)
      (later : Takes (d.extend row rows) next rest final left) : Takes d row rows final left

theorem takes_takeStatement (d : Draft) (row : List Char) (rows : List (List Char)) :
    Takes d row rows (takeStatement d row rows).1 (takeStatement d row rows).2 := by
  fun_induction takeStatement d row rows with
  | case1 d row rows added taken draft none => exact none ▸ .last
  | case2 d row rows added taken draft next rest found goes smaller ih => exact .next found ih
  | case3 d row rows added taken draft next rest found stops => exact found ▸ .last

namespace Takes

variable {d final : Draft} {row : List Char} {rows left : List (List Char)}

theorem suffix (takes : Takes d row rows final left) :
    left <:+ (takeBodies (d.add row).2 rows).2 := by
  induction takes with
  | last => exact List.suffix_rfl
  | next leaves later ih =>
      rw [leaves]
      exact (ih.trans (suffix_takeBodies _ _)).trans (List.suffix_cons _ _)

/-- What is read after a row begins with a blank. -/
theorem exists_more (takes : Takes d row rows final left) :
    ∃ more, final.text = (d.extend row rows).text ++ more ∧
      ((d.extend row rows).text ≠ [] → ∀ c ∈ more.head?, isBlank c = true) := by
  induction takes with
  | last => exact ⟨[], (List.append_nil _).symm, nofun⟩
  | @next d final row next rows rest left leaves later ih =>
      obtain ⟨more, text, blank⟩ := ih
      obtain ⟨gap, before, part, after, adds⟩ := (d.extend row rows).exists_adds next
      have extended : ((d.extend row rows).extend next rest).text =
          (d.extend row rows).text ++ (gap ++ part) := adds.text_eq
      refine ⟨gap ++ (part ++ more), ?_, fun some c first => ?_⟩
      · rw [text, extended, List.append_assoc, List.append_assoc]
      · cases gap with
        | cons b bs =>
            obtain rfl := Option.some.inj first
            exact List.all_eq_true.mp adds.gap_blank _ (.head _)
        | nil =>
            have none : part = [] := by
              by_contra other
              exact adds.gap_ne some other rfl
            rw [none] at first
            refine blank ?_ c first
            rw [extended]
            exact List.append_ne_nil_of_left_ne_nil some _

/-- Rows that open nothing add no body. -/
theorem heredocs_eq (takes : Takes d row rows final left) {more : List Char}
    (text : final.text = d.text ++ more) (plain : '<' ∉ more) : final.heredocs = d.heredocs := by
  induction takes generalizing more with
  | @last d row rows =>
      obtain ⟨gap, before, part, after, adds⟩ := d.exists_adds row
      obtain rfl := List.append_cancel_left (adds.text_eq.symm.trans text)
      exact adds.heredocs_eq (fun member => plain (List.mem_append_right _ member)) rows
  | @next d final row next rows rest left leaves later ih =>
      obtain ⟨gap, before, part, after, adds⟩ := d.exists_adds row
      obtain ⟨further, whole, -⟩ := (Takes.next leaves later).exists_more
      have extended : (d.extend row rows).text = d.text ++ (gap ++ part) := adds.text_eq
      rw [extended, List.append_assoc] at whole
      obtain rfl := List.append_cancel_left (text.symm.trans whole)
      have inside : '<' ∉ part := fun member =>
        plain (List.mem_append_left _ (List.mem_append_right _ member))
      have behind : '<' ∉ further := fun member => plain (List.mem_append_right _ member)
      rw [ih (by rw [text, extended, List.append_assoc d.text]) behind, adds.heredocs_eq inside]

/-- So they add none after a row. -/
theorem heredocs_eq_extend (takes : Takes d row rows final left) {more : List Char}
    (text : final.text = (d.extend row rows).text ++ more) (plain : '<' ∉ more) :
    final.heredocs = (d.extend row rows).heredocs := by
  cases takes with
  | last => rfl
  | next leaves later => exact later.heredocs_eq text plain

/-! ## The row with the opener -/

theorem not_mem_of_blank {blanks : List Char} (blank : isBlankText blanks = true) : '<' ∉ blanks :=
  not_mem_blanks blank (by decide)

/-- An opener ends before a blank. -/
theorem stops_append {after blanks : List Char} (stops : ∀ c ∈ after.head?, Opener.ends c = false)
    (blank : isBlankText blanks = true) : ∀ c ∈ (after ++ blanks).head?, Opener.ends c = false := by
  intro c first
  cases after with
  | cons d ds => exact stops c first
  | nil =>
      exact Opener.ends_of_isBlank (List.all_eq_true.mp blank c (List.mem_of_mem_head? first))

section Opener

variable {argument before after tag : List Char} {flag quote closing : Option Char}
  (spelled : Heredoc.IsSpelled argument flag quote tag closing)

include spelled

/-- An opener does not go on behind a blank. -/
theorem exists_part {part more between : List Char}
    (same : part ++ more = between ++ (argument ++ after)) (inside : '<' ∈ part)
    (plain : '<' ∉ between) (blank : ∀ c ∈ more.head?, isBlank c = true) :
    ∃ behind, part = between ++ (argument ++ behind) ∧ after = behind ++ more := by
  rw [← List.append_assoc] at same
  rcases List.append_eq_append_iff.mp same with ⟨cut, whole, split⟩ | ⟨behind, whole, split⟩
  · cases cut with
    | nil => exact ⟨[], by rw [List.append_nil, whole, List.append_nil], split.symm⟩
    | cons c cs =>
        have isBlank := blank c (split ▸ rfl)
        -- What is cut off would begin with a blank of the opener.
        rcases List.append_eq_append_iff.mp whole with ⟨rest, -, cut⟩ | ⟨rest, early, -⟩
        · have member : c ∈ argument := cut ▸ List.mem_append_right _ (.head _)
          cases isBlank.symm.trans (spelled.isBlank_of_mem member)
        · exact absurd (early ▸ List.mem_append_left _ inside) plain
  · exact ⟨behind, by rw [whole, List.append_assoc], split⟩

/-- A part of the text that holds a part of the opener holds all of it. -/
theorem exists_inside {d final : Draft} {row gap lead part tail : List Char}
    {rows left : List (List Char)} (takes : Takes d row rows final left)
    (adds : d.Adds row gap lead part tail) (old : '<' ∉ d.text)
    (text : final.text = before ++ (argument ++ after)) (plain : '<' ∉ before)
    (inside : '<' ∈ part) :
    ∃ between behind more, part = between ++ (argument ++ behind) ∧ after = behind ++ more ∧
      '<' ∉ between ∧ final.text = (d.extend row rows).text ++ more := by
  obtain ⟨more, grown, blank⟩ := takes.exists_more
  have extended : (d.extend row rows).text = d.text ++ (gap ++ part) := adds.text_eq
  have some : (d.extend row rows).text ≠ [] := by
    rw [extended]
    refine List.append_ne_nil_of_right_ne_nil _ (List.append_ne_nil_of_right_ne_nil _ ?_)
    exact List.ne_nil_of_mem inside
  have split : (d.text ++ gap) ++ (part ++ more) = before ++ (argument ++ after) := by
    rw [← text, grown, extended]
    simp only [List.append_assoc]
  have early : '<' ∉ d.text ++ gap := fun member =>
    (List.mem_append.mp member).elim old (not_mem_of_blank adds.gap_blank)
  obtain ⟨between, rfl, rest⟩ : ∃ between, before = (d.text ++ gap) ++ between ∧
      part ++ more = between ++ (argument ++ after) := by
    obtain ⟨c, cs, same, -⟩ := spelled.exists_tail
    rw [same] at split ⊢
    exact exists_append_of_not_mem split early
  have plain : '<' ∉ between := fun member => plain (List.mem_append_right _ member)
  obtain ⟨behind, whole, cut⟩ := exists_part spelled rest inside plain (blank some)
  exact ⟨between, behind, more, whole, cut, plain, grown⟩

/-- A row that adds the whole opener opens what the opener does. -/
theorem opened_of_part {d : Draft} {row gap lead between behind tail : List Char}
    (adds : d.Adds row gap lead (between ++ (argument ++ behind)) tail) (plain : '<' ∉ between)
    (plain' : '<' ∉ behind) (stops : ∀ c ∈ behind.head?, Opener.ends c = false) :
    argument <:+: row ∧ (d.add row).2 = Heredoc.opened argument := by
  have code : lead ++ ((between ++ (argument ++ behind)) ++ tail) =
      (lead ++ between) ++ (argument ++ (behind ++ tail)) := by
    simp only [List.append_assoc]
  have inRow := adds.code
  rw [code] at inRow
  refine ⟨List.IsInfix.trans ⟨_, _, List.append_assoc ..⟩ inRow.isInfix, ?_⟩
  rw [adds.opened, code]
  refine spelled.opened_around ?_ ?_ (stops_append stops adds.after_blank)
  · exact fun member =>
      (List.mem_append.mp member).elim (not_mem_of_blank adds.before_blank) plain
  · exact fun member =>
      (List.mem_append.mp member).elim plain' (not_mem_of_blank adds.after_blank)

/-- A row with a part of the opener has all of it, and what follows that row opens nothing. -/
theorem of_mem_part {d final : Draft} {row gap lead part tail : List Char}
    {rows left : List (List Char)} (takes : Takes d row rows final left)
    (adds : d.Adds row gap lead part tail) (old : '<' ∉ d.text)
    (text : final.text = before ++ (argument ++ after)) (plain : '<' ∉ before)
    (plain' : '<' ∉ after) (stops : ∀ c ∈ after.head?, Opener.ends c = false)
    (inside : '<' ∈ part) :
    argument <:+: row ∧ (d.add row).2 = Heredoc.opened argument ∧
      final.heredocs = (d.extend row rows).heredocs := by
  obtain ⟨between, behind, more, rfl, rfl, early, grown⟩ :=
    exists_inside spelled takes adds old text plain inside
  have late : '<' ∉ behind := fun member => plain' (List.mem_append_left _ member)
  have ends : ∀ c ∈ behind.head?, Opener.ends c = false := fun c first =>
    stops c (by rw [List.head?_append, Option.mem_def.mp first]; rfl)
  obtain ⟨inRow, opens⟩ := opened_of_part spelled adds early late ends
  exact ⟨inRow, opens, takes.heredocs_eq_extend grown fun member =>
    plain' (List.mem_append_right _ member)⟩

/-- The opener in a statement stands whole in one of its rows, which opens what the opener does, and
no other row opens anything. -/
theorem exists_row {d final : Draft} {row : List Char} {rows left : List (List Char)}
    (takes : Takes d row rows final left) (old : '<' ∉ d.text)
    (text : final.text = before ++ (argument ++ after)) (plain : '<' ∉ before)
    (plain' : '<' ∉ after) (stops : ∀ c ∈ after.head?, Opener.ends c = false) :
    ∃ early opening following, row :: rows = early ++ opening :: following ∧
      argument <:+: opening ∧
      final.heredocs = d.heredocs ++ (takeBodies (Heredoc.opened argument) following).1 ∧
      left <:+ (takeBodies (Heredoc.opened argument) following).2 := by
  have present : '<' ∈ final.text := by
    obtain ⟨c, cs, same, -⟩ := spelled.exists_tail
    simp [text, same]
  have here {d : Draft} {row gap lead part tail : List Char} {rows : List (List Char)}
      (takes : Takes d row rows final left) (adds : d.Adds row gap lead part tail)
      (old : '<' ∉ d.text) (inside : '<' ∈ part) :
      ∃ early opening following, row :: rows = early ++ opening :: following ∧
        argument <:+: opening ∧
        final.heredocs = d.heredocs ++ (takeBodies (Heredoc.opened argument) following).1 ∧
        left <:+ (takeBodies (Heredoc.opened argument) following).2 := by
    obtain ⟨whole, opens, heredocs⟩ :=
      of_mem_part spelled takes adds old text plain plain' stops inside
    exact ⟨[], row, rows, rfl, whole, opens ▸ heredocs, opens ▸ takes.suffix⟩
  induction takes with
  | @last d row rows =>
      obtain ⟨gap, lead, part, tail, adds⟩ := d.exists_adds row
      refine here .last adds old ?_
      rcases List.mem_append.mp (adds.text_eq ▸ present) with early | now
      · exact absurd early old
      · exact (List.mem_append.mp now).resolve_left (not_mem_of_blank adds.gap_blank)
  | @next d final row next rows rest left leaves later ih =>
      obtain ⟨gap, lead, part, tail, adds⟩ := d.exists_adds row
      by_cases inside : '<' ∈ part
      · exact here (.next leaves later) adds old inside
      · rw [adds.takeBodies_eq inside] at leaves
        obtain rfl : rows = next :: rest := leaves
        have still : '<' ∉ (d.extend row (next :: rest)).text := by
          change '<' ∉ (d.add row).1.text
          rw [adds.text_eq, List.mem_append, List.mem_append]
          rintro (early | between | now)
          · exact old early
          · exact not_mem_of_blank adds.gap_blank between
          · exact inside now
        obtain ⟨early, opening, following, split, whole, heredocs, taken⟩ :=
          ih still text present here
        exact ⟨row :: early, opening, following, congrArg (row :: ·) split, whole,
          adds.heredocs_eq inside (next :: rest) ▸ heredocs, taken⟩

end Opener

end Takes

/-! ## The rows of a logical line -/

/-- A logical line is a statement that is read from one of the rows on. -/
structure Line.IsRead (line : Line) (number : Nat) (skipped : List (List Char)) (row : List Char)
    (rows : List (List Char)) : Prop where
  text : line.text = trim (takeStatement .empty row rows).1.text
  heredocs : line.heredocs = (takeStatement .empty row rows).1.heredocs
  first : line.first = number + skipped.length
  last : line.last + (takeStatement .empty row rows).2.length = line.first + rows.length

theorem Line.exists_isRead_of_suffix {line : Line} {number taken : Nat} {first : List Char}
    {rows left : List (List Char)} (suffix : left <:+ rows)
    (count : taken = rows.length - left.length)
    (read : ∃ skipped row rest, left = skipped ++ row :: rest ∧
      line.IsRead (number + 1 + taken) skipped row rest) :
    ∃ skipped row rest, first :: rows = skipped ++ row :: rest ∧
      line.IsRead number skipped row rest := by
  obtain ⟨inside, rfl⟩ := suffix
  obtain ⟨skipped, row, rest, rfl, isRead⟩ := read
  refine ⟨first :: (inside ++ skipped), row, rest, ?_, isRead.text, isRead.heredocs, ?_,
    isRead.last⟩
  · rw [List.cons_append, List.append_assoc]
  · rw [isRead.first, count]
    simp only [List.length_append, List.length_cons]
    omega

theorem exists_isRead {line : Line} {number : Nat} {rows : List (List Char)}
    (member : line ∈ statements number rows) : ∃ skipped row rest,
      rows = skipped ++ row :: rest ∧ line.IsRead number skipped row rest := by
  fun_induction statements number rows with
  | case1 => cases member
  | case2 number row rows documents fewer ih =>
      obtain ⟨inside, split, -⟩ := exists_documentation rows
      exact Line.exists_isRead_of_suffix ⟨inside, split⟩ rfl (ih member)
  | case3 number row rows documents fewer taken next text others empty ih =>
      exact Line.exists_isRead_of_suffix (suffix_takeStatement .empty row rows) rfl (ih member)
  | case4 number row rows documents fewer taken next text others full ih =>
      rcases List.mem_cons.mp member with rfl | later
      · refine ⟨[], row, rows, rfl, rfl, rfl, rfl, ?_⟩
        dsimp only [next, taken]
        omega
      · exact Line.exists_isRead_of_suffix (suffix_takeStatement .empty row rows) rfl (ih later)

/-- The rows that a body takes: those before the tag, and the tag if there is one. -/
theorem exists_of_takeBody (tag : List Char) (rows : List (List Char)) :
    ∃ rest, rows = (takeBody tag rows).1 ++ rest ∧ (takeBody tag rows).2 = rest.tail ∧
      (∀ row ∈ (takeBody tag rows).1, trim row ≠ tag) ∧ ∀ row ∈ rest.head?, trim row = tag := by
  induction rows with
  | nil => exact ⟨[], rfl, rfl, List.forall_mem_nil _, nofun⟩
  | cons row rows ih =>
      rw [takeBody]
      split
      · rename_i ends
        exact ⟨row :: rows, rfl, rfl, List.forall_mem_nil _, fun other same =>
          Option.some.inj same ▸ ends⟩
      · rename_i other
        obtain ⟨rest, split, taken, inside, ends⟩ := ih
        exact ⟨rest, congrArg (row :: ·) split, taken, List.forall_mem_cons.mpr ⟨other, inside⟩,
          ends⟩

/-- A line with an opener in its text holds what the opener opens, and stands on the rows of
that. -/
theorem exists_following {source : List Char} {line : Line} (member : line ∈ Line.ofSource source)
    {argument before after tag : List Char} {flag quote closing : Option Char}
    (spelled : Heredoc.IsSpelled argument flag quote tag closing)
    (text : line.text = before ++ (argument ++ after)) (plain : '<' ∉ before)
    (plain' : '<' ∉ after) (stops : ∀ c ∈ after.head?, Opener.ends c = false) :
    ∃ early opening following, lines source = early ++ opening :: following ∧
      argument <:+: opening ∧ line.first ≤ early.length + 1 ∧
      line.heredocs = (takeBodies (Heredoc.opened argument) following).1 ∧
      early.length + 1 + following.length ≤
        line.last + (takeBodies (Heredoc.opened argument) following).2.length := by
  obtain ⟨skipped, row, rest, split, isRead⟩ := exists_isRead member
  obtain ⟨blanks, blanks', blank, blank', around⟩ :=
    exists_blanks_around (takeStatement .empty row rest).1.text
  have whole : (takeStatement .empty row rest).1.text =
      (blanks ++ before) ++ (argument ++ (after ++ blanks')) := by
    rw [around, ← isRead.text, text]
    simp only [List.append_assoc]
  have early : '<' ∉ blanks ++ before := fun member =>
    (List.mem_append.mp member).elim (Takes.not_mem_of_blank blank) plain
  have late : '<' ∉ after ++ blanks' := fun member =>
    (List.mem_append.mp member).elim plain' (Takes.not_mem_of_blank blank')
  obtain ⟨early, opening, following, rows, inRow, heredocs, taken⟩ :=
    (takes_takeStatement .empty row rest).exists_row spelled List.not_mem_nil whole early late
      (Takes.stops_append stops blank')
  refine ⟨skipped ++ early, opening, following, ?_, inRow, ?_, ?_, ?_⟩
  · rw [split, rows, List.append_assoc]
  · rw [isRead.first, List.length_append]
    omega
  · rw [isRead.heredocs, heredocs]
    rfl
  · have count := congrArg List.length rows
    have last := isRead.last
    have first := isRead.first
    have fewer := taken.length_le
    simp only [List.length_append, List.length_cons] at count ⊢
    omega

end Rolewright.Recipe
