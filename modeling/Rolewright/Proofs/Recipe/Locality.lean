/-
# Recipes are read piece by piece

A text that leaves nothing open is read by itself, and so is what follows it, but for the numbers of
its lines (`local_ofSource`). What can be open is a quote, a bracket, a statement that visibly goes
on, a heredoc without its terminator, and documentation without its `=end`. Each of them takes in a
line that follows, so the condition is exact (`isSettled_iff`).

The nesting of the one is that of the other too, if all blocks before have their `end`s. Lines that
say nothing only move what follows them, in whatever blocks they stand.
-/

import Rolewright.Proofs.Recipe.Places
import Rolewright.Proofs.Recipe.Renumbering
import Rolewright.Proofs.Recipe.Silence

namespace Rolewright

namespace Text

/-- Lines that are at an end stay as they are, whatever follows them. -/
theorem lines_append {cs : List Char} (ends : cs.getLast? = some '\n') (ds : List Char) :
    lines (cs ++ ds) = lines cs ++ lines ds := by
  fun_induction lines cs with
  | case1 => cases ends
  | case2 cs ih =>
      cases cs with
      | nil => rfl
      | cons c cs =>
          rw [List.getLast?_cons_cons] at ends
          rw [List.cons_append, lines, ih ends]
          rfl
  | case3 cs ih =>
      cases cs with
      | nil => rfl
      | cons c cs =>
          rw [List.getLast?_cons_cons, List.getLast?_cons_cons] at ends
          rw [List.cons_append, List.cons_append, lines, ih ends]
          rfl
  | case4 c cs other _ none ih =>
      obtain rfl : cs = [] := by
        by_contra some
        exact lines_ne_nil some none
      exact absurd (Option.some.inj ends) other
  | case5 c cs other noBreak line rest some ih =>
      cases cs with
      | nil => cases some
      | cons d cs =>
          rw [List.getLast?_cons_cons] at ends
          rw [List.cons_append, lines, ih ends, some]
          · rfl
          · exact other
          · rintro _ rfl same
            exact noBreak cs rfl (congrArg (· :: cs) (List.cons.inj same).1)

end Text

namespace Recipe

open Text

/-! ## Texts that leave nothing open -/

/-- Whether the bodies of all heredocs are terminated. -/
def areTerminated : List Heredoc → List (List Char) → Bool
  | [], _ => true
  | heredoc :: others, rows =>
    rows.any (trim · == heredoc.tag) && areTerminated others (takeBody heredoc.tag rows).2

/-- A statement after one more physical line and the heredoc bodies behind it. -/
def Draft.extend (d : Draft) (row : List Char) (rows : List (List Char)) : Draft :=
  { (d.add row).1 with
    heredocs := (d.add row).1.heredocs ++ (takeBodies (d.add row).2 rows).1 }

/-- Whether a statement has no open quote and no open bracket and does not visibly go on. -/
def Draft.isComplete (d : Draft) : Bool :=
  d.scan.quote.isNone && d.scan.depth == 0 && !continues d.text

/-- Whether a statement that is read from a physical line on is at an end by the last of the
lines. -/
def isEnded (d : Draft) (row : List Char) (rows : List (List Char)) : Bool :=
  match found : (takeBodies (d.add row).2 rows).2 with
  | [] => areTerminated (d.add row).2 rows && (d.extend row rows).isComplete
  | next :: rest =>
    if (d.extend row rows).goesOn next then
      have : rest.length < rows.length := by
        have := takeBodies_length (d.add row).2 rows
        rw [found] at this
        exact this
      isEnded (d.extend row rows) next rest
    else true
termination_by rows.length

/-- Whether some physical lines leave nothing open. -/
def isSettled (rows : List (List Char)) : Bool :=
  match rows with
  | [] => true
  | row :: rows =>
    if "=begin".toList.isPrefixOf row then
      have := afterDocumentation_length rows
      rows.any ("=end".toList.isPrefixOf ·) && isSettled (afterDocumentation rows)
    else
      have := takeStatement_length .empty row rows
      isEnded .empty row rows && isSettled (takeStatement .empty row rows).2
termination_by rows.length

/-! ## Heredocs and documentation -/

section Bodies

variable {rows : List (List Char)} {tag : List Char} {heredocs : List Heredoc}

theorem takeBody_append (ends : rows.any (trim · == tag) = true) (more : List (List Char)) :
    takeBody tag (rows ++ more) = ((takeBody tag rows).1, (takeBody tag rows).2 ++ more) := by
  induction rows with
  | nil => cases ends
  | cons row rows ih =>
      rw [List.cons_append, takeBody, takeBody]
      split
      · rfl
      · rename_i other
        rw [List.any_cons, beq_false_of_ne other, Bool.false_or] at ends
        rw [ih ends]

/-- A body without a terminator takes in a line that follows. -/
theorem takeBody_of_open (goes : rows.any (trim · == tag) = false) (more : List (List Char))
    (short : more.length ≤ 1) : (takeBody tag (rows ++ more)).2 = [] := by
  induction rows with
  | nil =>
      match more, short with
      | [], _ => rfl
      | [row], _ =>
          rw [List.nil_append, takeBody]
          split <;> rfl
  | cons first rows ih =>
      obtain ⟨other, goes⟩ := Bool.or_eq_false_iff.mp goes
      rw [List.cons_append, takeBody, if_neg (ne_of_beq_false other)]
      exact ih goes

theorem takeBodies_append (ends : areTerminated heredocs rows = true)
    (more : List (List Char)) : takeBodies heredocs (rows ++ more) =
      ((takeBodies heredocs rows).1, (takeBodies heredocs rows).2 ++ more) := by
  induction heredocs generalizing rows with
  | nil => rfl
  | cons heredoc others ih =>
      obtain ⟨first, later⟩ := (Bool.and_eq_true _ _).mp ends
      simp only [takeBodies, takeBody_append first, ih later]

theorem takeBodies_of_open (goes : areTerminated heredocs rows = false)
    (more : List (List Char)) (short : more.length ≤ 1) :
    (takeBodies heredocs (rows ++ more)).2 = [] := by
  induction heredocs generalizing rows with
  | nil => cases goes
  | cons heredoc others ih =>
      change (takeBodies others (takeBody heredoc.tag (rows ++ more)).2).2 = []
      cases first : rows.any (trim · == heredoc.tag) with
      | true =>
          rw [areTerminated, first, Bool.true_and] at goes
          rw [takeBody_append first]
          exact ih goes
      | false =>
          rw [takeBody_of_open first more short]
          exact List.suffix_nil.mp (suffix_takeBodies others [])

/-- Where lines are left all bodies are terminated. -/
theorem areTerminated_of_left {row : List Char} {rest : List (List Char)}
    (left : (takeBodies heredocs rows).2 = row :: rest) : areTerminated heredocs rows = true := by
  rw [← Bool.not_eq_false]
  intro goes
  have none := takeBodies_of_open goes [] (Nat.zero_le 1)
  rw [List.append_nil, left] at none
  cases none

theorem afterDocumentation_append (ends : rows.any ("=end".toList.isPrefixOf ·) = true)
    (more : List (List Char)) :
    afterDocumentation (rows ++ more) = afterDocumentation rows ++ more := by
  induction rows with
  | nil => cases ends
  | cons row rows ih =>
      rw [List.cons_append, afterDocumentation, afterDocumentation]
      split
      · rfl
      · rename_i other
        rw [List.any_cons, Bool.eq_false_iff.mpr other, Bool.false_or] at ends
        exact ih ends

theorem afterDocumentation_of_open (goes : rows.any ("=end".toList.isPrefixOf ·) = false)
    (row : List Char) : afterDocumentation (rows ++ [row]) = [] := by
  induction rows with
  | nil =>
      rw [List.nil_append, afterDocumentation]
      split <;> rfl
  | cons first rows ih =>
      obtain ⟨other, goes⟩ := Bool.or_eq_false_iff.mp goes
      rw [List.cons_append, afterDocumentation, if_neg (Bool.eq_false_iff.mp other)]
      exact ih goes

end Bodies

/-! ## Statements -/

section Statement

variable {d : Draft} {row next : List Char} {rows rest : List (List Char)}

theorem takeStatement_of_nil (none : (takeBodies (d.add row).2 rows).2 = []) :
    takeStatement d row rows = (d.extend row rows, []) := by
  rw [takeStatement]
  split
  · rfl
  · rename_i some
    cases none.symm.trans some

theorem takeStatement_of_cons (left : (takeBodies (d.add row).2 rows).2 = next :: rest) :
    takeStatement d row rows =
      if (d.extend row rows).goesOn next then takeStatement (d.extend row rows) next rest
      else (d.extend row rows, next :: rest) := by
  rw [takeStatement]
  split
  · rename_i none
    cases left.symm.trans none
  · rename_i some
    cases left.symm.trans some
    rfl

/-- A statement that is at an end does not go on. -/
theorem Draft.goesOn_of_isComplete (complete : d.isComplete = true) (next : List Char) :
    d.goesOn next = false := by
  obtain ⟨closed, ends⟩ := (Bool.and_eq_true _ _).mp complete
  obtain ⟨quote, depth⟩ := (Bool.and_eq_true _ _).mp closed
  rw [goesOn, Option.isSome_eq_false_iff.mpr quote, beq_iff_eq.mp depth]
  simpa using ends

/-- Otherwise it does, unless an `end` by itself follows. -/
theorem Draft.goesOn_of_not_isComplete (goes : d.isComplete = false)
    (other : trim next ≠ "end".toList) : d.goesOn next = true := by
  unfold goesOn
  split
  · rfl
  · rename_i quote
    split
    · exact bne_iff_ne.mpr other
    · rename_i depth
      have none : d.scan.quote = none := by simpa using quote
      simpa [isComplete, none, Nat.eq_zero_of_not_pos depth] using goes

theorem Draft.extend_append (ends : areTerminated (d.add row).2 rows = true)
    (more : List (List Char)) : d.extend row (rows ++ more) = d.extend row rows := by
  rw [extend, extend, takeBodies_append ends]

/-- A statement that is at an end is not changed by what follows it. -/
theorem takeStatement_append (ended : isEnded d row rows = true) (more : List (List Char)) :
    takeStatement d row (rows ++ more) =
      ((takeStatement d row rows).1, (takeStatement d row rows).2 ++ more) := by
  fun_induction isEnded d row rows with
  | case1 d row rows none =>
      obtain ⟨terminated, complete⟩ := (Bool.and_eq_true _ _).mp ended
      have left : (takeBodies (d.add row).2 (rows ++ more)).2 = more := by
        rw [takeBodies_append terminated, none, List.nil_append]
      rw [takeStatement_of_nil none]
      cases more with
      | nil => rw [takeStatement_of_nil left, Draft.extend_append terminated, List.append_nil]
      | cons next rest =>
          have stops := Draft.goesOn_of_isComplete complete next
          rw [takeStatement_of_cons left, Draft.extend_append terminated, stops]
          rfl
  | case2 d row rows next rest found goes smaller ih =>
      have terminated := areTerminated_of_left found
      have left : (takeBodies (d.add row).2 (rows ++ more)).2 = next :: (rest ++ more) := by
        rw [takeBodies_append terminated, found, List.cons_append]
      rw [takeStatement_of_cons left, takeStatement_of_cons found,
        Draft.extend_append terminated, if_pos goes, if_pos goes]
      exact ih ended
  | case3 d row rows next rest found stops =>
      have terminated := areTerminated_of_left found
      have left : (takeBodies (d.add row).2 (rows ++ more)).2 = next :: (rest ++ more) := by
        rw [takeBodies_append terminated, found, List.cons_append]
      rw [takeStatement_of_cons left, takeStatement_of_cons found,
        Draft.extend_append terminated, if_neg stops, if_neg stops]
      rfl

/-- A statement that is not at an end takes in a line that follows. -/
theorem takeStatement_of_open (goes : isEnded d row rows = false)
    (other : trim next ≠ "end".toList) : (takeStatement d row (rows ++ [next])).2 = [] := by
  fun_induction isEnded d row rows with
  | case1 d row rows none =>
      cases terminated : areTerminated (d.add row).2 rows with
      | false => rw [takeStatement_of_nil (takeBodies_of_open terminated [next] (Nat.le_refl 1))]
      | true =>
          rw [terminated, Bool.true_and] at goes
          have left : (takeBodies (d.add row).2 (rows ++ [next])).2 = [next] := by
            rw [takeBodies_append terminated, none, List.nil_append]
          rw [takeStatement_of_cons left, Draft.extend_append terminated,
            if_pos (Draft.goesOn_of_not_isComplete goes other)]
          exact List.suffix_nil.mp (suffix_takeStatement _ next [])
  | case2 d row rows first rest found on smaller ih =>
      have terminated := areTerminated_of_left found
      have left : (takeBodies (d.add row).2 (rows ++ [next])).2 = first :: (rest ++ [next]) := by
        rw [takeBodies_append terminated, found, List.cons_append]
      rw [takeStatement_of_cons left, Draft.extend_append terminated, if_pos on]
      exact ih goes
  | case3 d row rows first rest found stops => cases goes

end Statement

/-! ## Sources -/

section Settled

variable {rows : List (List Char)}

theorem length_sub_append (rows rest more : List (List Char)) :
    (rows ++ more).length - (rest ++ more).length = rows.length - rest.length := by
  rw [List.length_append, List.length_append, Nat.add_sub_add_right]

/-- What follows lines that leave nothing open is read by itself. -/
theorem statements_of_isSettled (settled : isSettled rows = true) (number : Nat)
    (more : List (List Char)) : statements number (rows ++ more) =
      statements number rows ++ statements (number + rows.length) more := by
  fun_induction isSettled rows generalizing number with
  | case1 => rw [statements]; rfl
  | case2 row rows begins fewer ih =>
      obtain ⟨ends, settled⟩ := (Bool.and_eq_true _ _).mp settled
      rw [List.cons_append, statements, statements, if_pos begins, if_pos begins,
        afterDocumentation_append ends, length_sub_append, ih settled, next_add_length fewer rfl,
        List.length_cons]
  | case3 row rows code fewer ih =>
      obtain ⟨ended, settled⟩ := (Bool.and_eq_true _ _).mp settled
      rw [List.cons_append, statements, statements, if_neg code, if_neg code]
      dsimp only
      rw [takeStatement_append ended, length_sub_append, ih settled, next_add_length fewer rfl,
        List.length_cons]
      split <;> rfl

/-- Lines that leave something open take in one that follows: nothing begins there. -/
theorem first_lt_of_open (goes : isSettled rows = false) {next : List Char}
    (other : trim next ≠ "end".toList) (number : Nat) :
    ∀ line ∈ statements number (rows ++ [next]), line.first < number + rows.length := by
  fun_induction isSettled rows generalizing number with
  | case1 => cases goes
  | case2 row rows begins fewer ih =>
      rw [List.cons_append, statements, if_pos begins]
      cases ends : rows.any ("=end".toList.isPrefixOf ·) with
      | false =>
          rw [afterDocumentation_of_open ends, statements]
          exact List.forall_mem_nil _
      | true =>
          rw [ends, Bool.true_and] at goes
          rw [afterDocumentation_append ends, length_sub_append, List.length_cons,
            ← next_add_length fewer rfl]
          exact ih goes _
  | case3 row rows code fewer ih =>
      rw [List.cons_append, statements, if_neg code]
      dsimp only
      have here : number < number + (row :: rows).length := by simp
      cases ended : isEnded .empty row rows with
      | false =>
          rw [takeStatement_of_open ended other, statements]
          split
          · exact List.forall_mem_nil _
          · exact List.forall_mem_singleton.mpr here
      | true =>
          rw [ended, Bool.true_and] at goes
          rw [takeStatement_append ended, length_sub_append]
          have later := ih goes
            (number + 1 + (rows.length - (takeStatement .empty row rows).2.length))
          rw [next_add_length fewer rfl] at later
          split
          · exact later
          · exact List.forall_mem_cons.mpr ⟨here, later⟩

end Settled

/-! ## Nestings -/

namespace Nesting

variable {before : List Node}

/-- A nesting that is read behind other nodes. -/
def behind (before : List Node) (s : Nesting) : Nesting :=
  { s with root := before ++ s.root }

theorem add_behind (s : Nesting) (node : Node) :
    (s.behind before).add node = (s.add node).behind before := by
  obtain ⟨stack, root⟩ := s
  cases stack with
  | nil => rw [behind, add, behind, add, List.append_assoc]
  | cons top below => rfl

theorem Reads.behind {line : Line} {s next : Nesting} (reads : Reads line s next) :
    Reads line (s.behind before) (next.behind before) := by
  cases reads with
  | opens role => exact .opens role
  | arm role accepted => exact .arm role accepted
  | ends role =>
      rw [← add_behind]
      exact .ends role
  | stray role =>
      rw [← add_behind]
      exact .stray role
  | statement role =>
      rw [← add_behind]
      exact .statement role
  | refused role refused =>
      rw [← add_behind]
      exact .refused role refused

theorem foldl_read_behind (lines : List Line) (s : Nesting) :
    lines.foldl Nesting.read (s.behind before) = (lines.foldl Nesting.read s).behind before := by
  induction lines generalizing s with
  | nil => rfl
  | cons line lines ih =>
      rw [List.foldl_cons, (s.reads_read line).behind.read_eq, ih, List.foldl_cons]

theorem finish_behind (final : Nat) (stack : List OpenBlock) (root : List Node) :
    Nesting.finish final stack (before ++ root) = before ++ Nesting.finish final stack root := by
  fun_induction Nesting.finish final stack root with
  | case1 => rw [Nesting.finish]
  | case2 top root node => rw [Nesting.finish, List.append_assoc]
  | case3 top root node next rest ih => rw [Nesting.finish, ih]

/-- If all blocks have their `end`s, none is open where the lines end. -/
theorem stack_eq_nil {final : Nat} {stack : List OpenBlock} {root : List Node}
    (closed : Throughout (·.closed = true) (Nesting.finish final stack root)) : stack = [] := by
  fun_induction Nesting.finish final stack root with
  | case1 => rfl
  | case2 top root node =>
      have here : false = true := (Throughout.block_iff.mp (Throughout.append_iff.mp closed).2).1
      cases here
  | case3 top root node next rest ih => cases ih closed

end Nesting

/-- Lines whose blocks all have their `end`s are nested by themselves. -/
theorem ofLines_append {lines : List Line}
    (closed : Throughout (·.closed = true) (Node.ofLines lines)) (others : List Line) :
    Node.ofLines (lines ++ others) = Node.ofLines lines ++ Node.ofLines others := by
  have none : (lines.foldl Nesting.read ⟨[], []⟩).stack = [] := Nesting.stack_eq_nil closed
  have nodes : Node.ofLines lines = (lines.foldl Nesting.read ⟨[], []⟩).root := by
    rw [Node.ofLines, none, Nesting.finish]
  -- With no block open the first lines leave nothing but finished nodes to the others.
  have state : lines.foldl Nesting.read ⟨[], []⟩ =
      Nesting.behind (Node.ofLines lines) ⟨[], []⟩ := by
    rw [nodes, Nesting.behind, List.append_nil]
    exact congrArg (Nesting.mk · _) none
  have read : (lines ++ others).foldl Nesting.read ⟨[], []⟩ =
      (others.foldl Nesting.read ⟨[], []⟩).behind (Node.ofLines lines) := by
    rw [List.foldl_append, state, Nesting.foldl_read_behind]
  have ends : Nesting.finish (((lines ++ others).getLast?.map (·.last)).getD 0)
      (others.foldl Nesting.read ⟨[], []⟩).stack (others.foldl Nesting.read ⟨[], []⟩).root =
        Node.ofLines others := by
    cases last : others.getLast? with
    | none =>
        rw [List.getLast?_eq_none_iff.mp last]
        simp [Node.ofLines, Nesting.finish]
    | some line =>
        rw [Node.ofLines, List.getLast?_append, last]
        rfl
  rw [← ends, ← Nesting.finish_behind]
  conv => lhs; rw [Node.ofLines, read]
  rfl

/-! ## Lines that are put in -/

/-- Lines that say nothing only count. -/
theorem statements_silent {quiet : List (List Char)} (silent : ∀ row ∈ quiet, IsSilent row)
    (number : Nat) (rows : List (List Char)) :
    statements number (quiet ++ rows) = statements (number + quiet.length) rows := by
  induction quiet generalizing number with
  | nil => rfl
  | cons row quiet ih =>
      obtain ⟨here, later⟩ := List.forall_mem_cons.mp silent
      rw [List.cons_append, here.statements_cons, ih later, List.length_cons, Nat.add_right_comm]
      rfl

/-- The number of a physical line after `count` lines have been put in behind the line `place`. -/
def pushed (place count n : Nat) : Nat :=
  if n ≤ place then n else n + count

theorem monotone_pushed (place count : Nat) : Monotone (pushed place count) := by
  intro m n le
  unfold pushed
  split_ifs <;> omega

theorem Line.Within.renumber_pushed {line : Line} {low place : Nat}
    (within : line.Within low (place + 1)) (count : Nat) :
    line.renumber (pushed place count) = line := by
  have last : line.last ≤ place := Nat.le_of_lt_succ within.last_lt
  rw [Line.renumber, pushed, pushed, if_pos last, if_pos (Nat.le_trans within.first_le last)]

theorem Line.Within.renumber_pushed_of_lt {line : Line} {place high : Nat}
    (within : line.Within (place + 1) high) (count : Nat) :
    line.renumber (pushed place count) = line.renumber (· + count) := by
  have first : ¬ line.first ≤ place := Nat.not_le_of_lt within.low_le
  have last : ¬ line.last ≤ place :=
    Nat.not_le_of_lt (Nat.lt_of_lt_of_le within.low_le within.first_le)
  rw [Line.renumber, Line.renumber, pushed, pushed, if_neg first, if_neg last]

section Source

variable {a : List Char}

/-- What follows a text that leaves nothing open is read by itself. -/
theorem ofSource_append (ends : a.getLast? = some '\n') (settled : isSettled (lines a) = true)
    (b : List Char) : Line.ofSource (a ++ b) =
      Line.ofSource a ++ (Line.ofSource b).map (Line.renumber (· + (lines a).length)) := by
  rw [Line.ofSource, lines_append ends, statements_of_isSettled settled, statements_add]
  rfl

/-- Lines that say nothing, behind a text that leaves nothing open, push down what follows. -/
theorem ofSource_append_silent (ends : a.getLast? = some '\n')
    (settled : isSettled (lines a) = true) {c : List Char} (broken : c.getLast? = some '\n')
    (silent : ∀ row ∈ lines c, IsSilent row) (b : List Char) : Line.ofSource (a ++ c ++ b) =
      (Line.ofSource (a ++ b)).map
        (Line.renumber (pushed (lines a).length (lines c).length)) := by
  have before : (Line.ofSource a).map
      (Line.renumber (pushed (lines a).length (lines c).length)) = Line.ofSource a := by
    conv => rhs; rw [← List.map_id (Line.ofSource a)]
    exact List.map_congr_left fun line member =>
      (Line.within_of_mem_ofSource member).renumber_pushed _
  have after : (statements (1 + (lines a).length) (lines b)).map
      (Line.renumber (pushed (lines a).length (lines c).length)) =
        statements (1 + (lines a).length + (lines c).length) (lines b) := by
    rw [statements_add (1 + (lines a).length), Nat.add_comm 1]
    exact List.map_congr_left fun line member =>
      (within_of_mem_statements _ _ line member).renumber_pushed_of_lt _
  rw [List.append_assoc, Line.ofSource, lines_append ends, lines_append broken,
    statements_of_isSettled settled, statements_silent silent, Line.ofSource, lines_append ends,
    statements_of_isSettled settled, List.map_append, after]
  exact congrArg (· ++ _) before.symm

/-- Nothing else may be open: if all that follows a text is read by itself, the text leaves nothing
open. -/
theorem isSettled_iff (ends : a.getLast? = some '\n') : isSettled (lines a) = true ↔
    ∀ b, Line.ofSource (a ++ b) =
      Line.ofSource a ++ (Line.ofSource b).map (Line.renumber (· + (lines a).length)) := by
  refine ⟨ofSource_append ends, fun piecewise => ?_⟩
  rw [← Bool.not_eq_false]
  intro goes
  -- One more line, of a word, begins a statement by itself and none if it is taken in.
  have single : Line.ofSource ['x'] = [⟨['x'], 1, 1, []⟩] := by decide +kernel
  have whole := piecewise ['x']
  rw [single, Line.ofSource, lines_append ends] at whole
  have other : trim ['x'] ≠ "end".toList := by decide
  have there : Line.renumber (· + (lines a).length) ⟨['x'], 1, 1, []⟩ ∈
      statements 1 (lines a ++ [['x']]) := by
    change statements 1 (lines a ++ [['x']]) = _ at whole
    rw [whole]
    exact List.mem_append_right _ (.head _)
  exact Nat.lt_irrefl _ (first_lt_of_open goes other 1 _ there)

/-- Reading is local. What follows a text that leaves nothing open is read by itself; so are its
blocks, if those before all have their `end`s. In particular lines that say nothing may be put in
behind such a text, and only the numbers of what follows change. -/
theorem local_ofSource (ends : a.getLast? = some '\n') (settled : isSettled (lines a) = true)
    (b : List Char) :
    Line.ofSource (a ++ b) =
        Line.ofSource a ++ (Line.ofSource b).map (Line.renumber (· + (lines a).length)) ∧
      (Throughout (·.closed = true) (Node.ofLines (Line.ofSource a)) →
        Node.ofLines (Line.ofSource (a ++ b)) = Node.ofLines (Line.ofSource a) ++
          (Node.ofLines (Line.ofSource b)).map (Node.renumber (· + (lines a).length))) ∧
      ∀ c, c.getLast? = some '\n' → (∀ row ∈ lines c, IsSilent row) →
        Line.ofSource (a ++ c ++ b) = (Line.ofSource (a ++ b)).map
            (Line.renumber (pushed (lines a).length (lines c).length)) ∧
          Node.ofLines (Line.ofSource (a ++ c ++ b)) = (Node.ofLines (Line.ofSource (a ++ b))).map
            (Node.renumber (pushed (lines a).length (lines c).length)) := by
  have shift : Monotone (· + (lines a).length) := fun m n le => Nat.add_le_add_right le _
  have piecewise := (isSettled_iff ends).mp settled
  refine ⟨piecewise b, fun closed => ?_, fun c broken silent => ?_⟩
  · rw [piecewise, ofLines_append closed, ofLines_renumber shift]
  · have pushed := ofSource_append_silent ends settled broken silent b
    refine ⟨pushed, ?_⟩
    rw [pushed, ofLines_renumber (monotone_pushed _ _)]

end Source

/-- A text that leaves nothing open, though it has documentation and a heredoc in a block. -/
def settledText : List Char :=
  "=begin\nnotes\n=end\nfile '/a' do\n  content <<~A\n    text\n  A\nend\n".toList

theorem ofLines_settledText : Node.ofLines (Line.ofSource settledText) =
    [.block ⟨.call "file '/a'".toList none, ⟨"file '/a' do".toList, 4, 4, []⟩,
      [⟨.body, [], 4, [.statement ⟨"content <<~A".toList, 5, 7, ["text".toList]⟩]⟩], 8, true,
      none⟩] := by
  have lines : Line.ofSource settledText =
      [⟨"file '/a' do".toList, 4, 4, []⟩, ⟨"content <<~A".toList, 5, 7, ["text".toList]⟩,
        ⟨"end".toList, 8, 8, []⟩] := by decide +kernel
  have head : LineRole.ofText "file '/a' do".toList =
      .opens (.call "file '/a'".toList none) [] := by decide +kernel
  have body : LineRole.ofText "content <<~A".toList = .statement := by decide +kernel
  have ends : LineRole.ofText "end".toList = .ends none := by decide +kernel
  rw [lines]
  simp only [Node.ofLines, List.foldl_cons, List.foldl_nil, Nesting.read, head, body, ends]
  simp [Nesting.add, OpenBlock.add, OpenBlock.close, Nesting.finish]

/-- A comment between that text and a statement moves the statement and nothing else. -/
theorem local_settledText :
    Node.ofLines (Line.ofSource (settledText ++ "# later\n".toList ++ "log 'x'\n".toList)) =
      (Node.ofLines (Line.ofSource settledText) ++
        (Node.ofLines (Line.ofSource "log 'x'\n".toList)).map (Node.renumber (· + 8))).map
          (Node.renumber (pushed 8 1)) := by
  have ends : settledText.getLast? = some '\n' := by decide +kernel
  have settled : isSettled (lines settledText) = true := by decide +kernel
  have closed : Throughout (·.closed = true) (Node.ofLines (Line.ofSource settledText)) := by
    rw [ofLines_settledText]
    exact Throughout.block_iff.mpr ⟨rfl, .statement _ _⟩
  have length : (lines settledText).length = 8 := by decide +kernel
  have one : (lines "# later\n".toList).length = 1 := by decide +kernel
  obtain ⟨-, nodes, pushes⟩ := local_ofSource ends settled "log 'x'\n".toList
  rw [(pushes "# later\n".toList (by decide +kernel) (by decide +kernel)).2, nodes closed, length,
    one]

end Recipe

end Rolewright
