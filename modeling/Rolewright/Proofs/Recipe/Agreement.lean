/-
# Rows whose quoted texts agree

Lines are searched for heredocs, for assignments from a block and for calls of loops without regard
to quotes. The outline of a recipe rests on no more of the texts that it quotes
(`Row.outline_congr`), with one addition: a loop puts its head on all that stands in it, and
stretches are joined if their guards are the same.

Two sources are read side by side. What they are made of is compared by what it gives in the end, so
that a block behaves like another one as soon as all that it holds does.
-/

import Mathlib.Data.List.Forall2
import Rolewright.Proofs.Recipe.Listing

namespace Rolewright.Recipe

open Text

/-! ## Texts that agree -/

/-- What a text in quotes is there for. -/
inductive Slot where
  | name
  | text

/-- Whether a heredoc is opened inside the quotes. -/
def Quoted.opensHeredoc (s : Quoted) : Bool :=
  !(Heredoc.opened s.text).isEmpty

theorem Quoted.opensHeredoc_eq_false {s : Quoted} :
    s.opensHeredoc = false ↔ Heredoc.opened s.text = [] := by
  rw [opensHeredoc, Bool.not_eq_false', List.isEmpty_iff]

/-- Whether a text is taken for a part of the code around it: a name for a call of a loop, another
text for an assignment from a block. -/
def Slot.isLoud : Slot → Quoted → Bool
  | .name, s => callsLoop s.text
  | .text, s => assignsBlock s.text

/-- Two texts that are taken for the same. -/
structure Slot.Agree (slot : Slot) (s t : Quoted) : Prop where
  heredoc : s.opensHeredoc = t.opensHeredoc
  loud : slot.isLoud s = slot.isLoud t
  /-- What a loop holds is known by the head of the loop. -/
  guard : slot = .name → slot.isLoud s = true → s.opensHeredoc = false → s.text = t.text

theorem Slot.Agree.refl (slot : Slot) (s : Quoted) : slot.Agree s s :=
  ⟨rfl, rfl, fun _ _ _ => rfl⟩

/-- Rows that are the same but for quoted texts that agree. -/
inductive Row.Alike : Row → Row → Prop
  | blank : Alike .blank .blank
  | head {type : String} (isType : IsType type) {s t : Quoted} (agree : Slot.name.Agree s t) :
      Alike (.head type isType s) (.head type isType t)
  | entry {key : String} (isHead : IsHead key.toList) {s t : Quoted}
      (agree : Slot.text.Agree s t) : Alike (.entry key isHead s) (.entry key isHead t)
  | close : Alike .close .close

theorem Row.Alike.refl : ∀ row : Row, Row.Alike row row
  | .blank => .blank
  | .head _ isType _ => .head isType (.refl _ _)
  | .entry _ isHead _ => .entry isHead (.refl _ _)
  | .close => .close

/-- Texts that agree announce heredocs or do not. -/
theorem Slot.Agree.opened_iff {slot : Slot} {s t : Quoted} (agree : slot.Agree s t) :
    Heredoc.opened s.text = [] ↔ Heredoc.opened t.text = [] := by
  rw [← List.isEmpty_iff, ← List.isEmpty_iff, Bool.not_inj agree.heredoc]

/-- Alike rows announce heredocs or do not, -/
theorem Row.Alike.heredocs_iff {row row' : Row} (alike : row.Alike row') :
    row.heredocs = [] ↔ row'.heredocs = [] := by
  cases alike with
  | blank | close => exact Iff.rfl
  | head isType agree | entry isHead agree => exact agree.opened_iff

/-- and are blank or are not. -/
theorem Row.Alike.blank_iff {row row' : Row} (alike : row.Alike row') :
    row = .blank ↔ row' = .blank := by
  cases alike <;> simp

/-! ## Nodes that behave alike -/

/-- Nodes of two sources that give the same, as far as the outline rests on it, wherever they
stand. -/
structure Node.Alike (o o' : Origin) (node node' : Node) : Prop where
  outside : ∀ guards,
    (o.nodeFindings guards node).map Finding.bare =
      (o'.nodeFindings guards node').map Finding.bare
  inside : ∀ guards,
    (o.innerFindings guards node).map Finding.bare =
      (o'.innerFindings guards node').map Finding.bare

section Alike

variable {o o' : Origin} {nodes nodes' : List Node}

/-- Nodes that behave alike are found alike, one list of them for the other, -/
theorem map_bare_nodesFindings (alike : List.Forall₂ (Node.Alike o o') nodes nodes')
    (guards : List Guard) :
    (o.nodesFindings guards nodes).map Finding.bare =
      (o'.nodesFindings guards nodes').map Finding.bare := by
  induction alike with
  | nil => rfl
  | cons here _ ih =>
      rw [Origin.nodesFindings, Origin.nodesFindings, List.map_append, List.map_append,
        here.outside, ih]

/-- in the body of a resource too. -/
theorem map_bare_innerNodes (alike : List.Forall₂ (Node.Alike o o') nodes nodes')
    (guards : List Guard) :
    (o.innerNodes guards nodes).map Finding.bare =
      (o'.innerNodes guards nodes').map Finding.bare := by
  induction alike with
  | nil => rfl
  | cons here _ ih =>
      rw [Origin.innerNodes, Origin.innerNodes, List.map_append, List.map_append, here.inside, ih]

variable (same : o.file = o'.file ∧ o.types = o'.types)

include same

theorem Origin.span_eq (first last : Nat) : o.span first last = o'.span first last := by
  rw [Origin.span, Origin.span, same.1]

theorem entryFinding_eq (key : String) (guards : List Guard) (first last : Nat) :
    entryFinding o key guards first last = entryFinding o' key guards first last := by
  rw [entryFinding, entryFinding, Origin.knows, Origin.knows, Origin.span_eq same, same.2]

/-- Statements of one key behave alike, whatever their texts. -/
theorem Node.alike_entry {key : String} (isHead : IsHead key.toList) (s t : Quoted)
    (first last : Nat) (heredocs heredocs' : List (List Char)) :
    Node.Alike o o' (.statement ⟨sentence key s, first, last, heredocs⟩)
      (.statement ⟨sentence key t, first, last, heredocs'⟩) where
  outside guards := by
    rw [Origin.nodeFindings, Origin.nodeFindings, map_bare_lineFindings isHead,
      map_bare_lineFindings isHead, entryFinding_eq same]
  inside _ := rfl

/-- Two blocks that heads open behave alike, if what they hold does: as loops only if the heads are
the same, or if there is nothing in them. -/
theorem Node.alike_headBlock {type : String} (isType : IsType type) {s t : Quoted}
    (loud : callsLoop s.text = callsLoop t.text) {header header' : Line}
    (first : header.first = header'.first) {children children' : List Node}
    (guard : callsLoop s.text = true → s.text = t.text ∨ children = [] ∧ children' = [])
    (inner : List.Forall₂ (Node.Alike o o') children children') (last : Nat) (closed : Bool) :
    Node.Alike o o' (.block (headBlock type s header children last closed))
      (.block (headBlock type t header' children' last closed)) where
  outside guards := by
    rw [map_bare_nodeFindings_headBlock o guards header children last closed isType,
      map_bare_nodeFindings_headBlock o' guards header' children' last closed isType, ← loud,
      first, Origin.span_eq same, map_bare_innerNodes inner]
    split_ifs with loop
    · rcases guard loop with head | ⟨none, none'⟩
      · rw [sentence, sentence, head, map_bare_nodesFindings inner]
      · rw [none, none']
        rfl
    · rfl
  inside guards := by
    rw [map_bare_innerFindings_headBlock o guards header children last closed isType,
      map_bare_innerFindings_headBlock o' guards header' children' last closed isType, first,
      Origin.span_eq same, map_bare_innerNodes inner]

end Alike

/-! ## Blocks that are being read -/

/-- Open blocks that are alike whatever is added to them. -/
inductive OpenBlock.Alike (o o' : Origin) : OpenBlock → OpenBlock → Prop
  | head {type : String} (isType : IsType type) {s t : Quoted}
      (loud : callsLoop s.text = callsLoop t.text)
      (guard : callsLoop s.text = true → s.text = t.text) {header header' : Line}
      (first : header.first = header'.first) (last : header.last = header'.last)
      {children children' : List Node}
      (inner : List.Forall₂ (Node.Alike o o') children children') :
      Alike o o' ⟨.call (sentence type s) none, header, [], ⟨.body, [], header.first, children⟩⟩
        ⟨.call (sentence type t) none, header', [], ⟨.body, [], header'.first, children'⟩⟩
  | sealed {header header' : Line} (first : header.first = header'.first)
      (last : header.last = header'.last) (current current' : Branch Node) :
      Alike o o' ⟨.sealed, header, [], current⟩ ⟨.sealed, header', [], current'⟩

/-- Nestings that are alike whatever is read next. -/
structure Nesting.Alike (o o' : Origin) (s s' : Nesting) : Prop where
  stack : List.Forall₂ (OpenBlock.Alike o o') s.stack s'.stack
  root : List.Forall₂ (Node.Alike o o') s.root s'.root

/-- The nodes of a nesting whose blocks all end with the source. -/
def Nesting.nodes (final : Nat) (s : Nesting) : List Node :=
  finish final s.stack s.root

/-- The innermost block ends first. -/
theorem Nesting.nodes_push (final : Nat) (top : OpenBlock) (below : List OpenBlock)
    (root : List Node) :
    nodes final ⟨top :: below, root⟩ =
      (Nesting.add ⟨below, root⟩
        (.block (top.close (max final top.header.last) false none))).nodes final := by
  rw [nodes, finish.eq_def]
  cases below with
  | nil => rw [nodes, add, finish]
  | cons next rest => rfl

theorem Nesting.length_stack_add (s : Nesting) (node : Node) :
    (s.add node).stack.length = s.stack.length := by
  obtain ⟨stack, root⟩ := s
  cases stack <;> rfl

section Reading

variable {o o' : Origin} {b b' : OpenBlock} {s s' : Nesting} {node node' : Node}

/-- Open blocks stay alike when alike nodes are added -/
theorem OpenBlock.Alike.add (alike : b.Alike o o' b') (nodes : node.Alike o o' node') :
    (b.add node).Alike o o' (b'.add node') := by
  cases alike with
  | head isType loud guard first last inner =>
      exact .head isType loud guard first last (List.rel_append inner (.cons nodes .nil))
  | «sealed» first last => exact .sealed first last _ _

theorem OpenBlock.Alike.header_last (alike : b.Alike o o' b') : b.header.last = b'.header.last := by
  cases alike <;> assumption

variable (same : o.file = o'.file ∧ o.types = o'.types)

include same

/-- and become alike nodes when they are closed. -/
theorem OpenBlock.Alike.close (alike : b.Alike o o' b') (last : Nat) (closed : Bool) :
    Node.Alike o o' (.block (b.close last closed none)) (.block (b'.close last closed none)) := by
  cases alike with
  | head isType loud guard first _ inner =>
      exact Node.alike_headBlock same isType loud first (fun loop => .inl (guard loop)) inner last
        closed
  | «sealed» first _ current current' =>
      refine ⟨fun guards => ?_, fun _ => rfl⟩
      rw [Origin.nodeFindings_of_sealed rfl rfl, Origin.nodeFindings_of_sealed rfl rfl]
      simp [OpenBlock.close, first]

omit same in
/-- So does all that is read so far. -/
theorem Nesting.Alike.add (alike : s.Alike o o' s') (nodes : node.Alike o o' node') :
    (s.add node).Alike o o' (s'.add node') := by
  obtain ⟨stack, root⟩ := s
  obtain ⟨stack', root'⟩ := s'
  obtain ⟨blocks, roots⟩ := alike
  cases blocks with
  | nil => exact ⟨.nil, List.rel_append roots (.cons nodes .nil)⟩
  | cons first others => exact ⟨.cons (first.add nodes) others, roots⟩

/-- Alike nestings give alike nodes. -/
theorem Nesting.Alike.nodes (alike : s.Alike o o' s') (final : Nat) :
    List.Forall₂ (Node.Alike o o') (s.nodes final) (s'.nodes final) := by
  -- the block that is closed is added to the one below it, so only the number of blocks goes down
  induction depth : s.stack.length generalizing s s' with
  | zero =>
      obtain ⟨stack, root⟩ := s
      obtain ⟨stack', root'⟩ := s'
      obtain ⟨blocks, roots⟩ := alike
      cases blocks with
      | nil => simpa [Nesting.nodes, finish] using roots
      | cons => cases depth
  | succ depth ih =>
      obtain ⟨stack, root⟩ := s
      obtain ⟨stack', root'⟩ := s'
      obtain ⟨blocks, roots⟩ := alike
      cases blocks with
      | nil => cases depth
      | @cons top top' below below' first others =>
          have outside : Nesting.Alike o o' ⟨below, root⟩ ⟨below', root'⟩ := ⟨others, roots⟩
          have closing := first.close same (max final top.header.last) false
          rw [Nesting.nodes_push, Nesting.nodes_push, ← first.header_last]
          refine ih (outside.add closing) ?_
          rw [Nesting.length_stack_add]
          exact Nat.succ.inj depth

/-! ## Rows that are read -/

section Rows

variable {type key : String} {first last : Nat} {heredocs heredocs' : List (List Char)}

omit same in
/-- The row of a head opens a block. -/
theorem Nesting.read_head (isType : IsType type) (name : Quoted) (s : Nesting) :
    s.read ⟨(Row.head type isType name).text, first, last, heredocs⟩ =
      ⟨⟨.call (sentence type name) none,
          ⟨(Row.head type isType name).text, first, last, heredocs⟩, [], ⟨.body, [], first, []⟩⟩ ::
        s.stack, s.root⟩ := by
  rw [Nesting.read, ofText_head]

omit same in
/-- A head is read alike, if a loop has the same head. -/
theorem Nesting.Alike.read_head (alike : s.Alike o o' s') (isType : IsType type) {x y : Quoted}
    (loud : callsLoop x.text = callsLoop y.text)
    (guard : callsLoop x.text = true → x.text = y.text) :
    Nesting.Alike o o' (s.read ⟨(Row.head type isType x).text, first, last, heredocs⟩)
      (s'.read ⟨(Row.head type isType y).text, first, last, heredocs'⟩) := by
  rw [Nesting.read_head, Nesting.read_head]
  refine ⟨.cons (.head isType loud guard ?_ ?_ .nil) alike.stack, alike.root⟩ <;> rfl

/-- A loop behind whose head nothing follows has nothing in it. -/
theorem Nesting.Alike.nodes_read_head (alike : s.Alike o o' s') (isType : IsType type)
    {x y : Quoted} (loud : callsLoop x.text = callsLoop y.text) (final : Nat) :
    List.Forall₂ (Node.Alike o o')
      ((s.read ⟨(Row.head type isType x).text, first, last, heredocs⟩).nodes final)
      ((s'.read ⟨(Row.head type isType y).text, first, last, heredocs'⟩).nodes final) := by
  rw [Nesting.read_head, Nesting.read_head, Nesting.nodes_push, Nesting.nodes_push]
  refine Nesting.Alike.nodes same (Nesting.Alike.add alike ?_) final
  refine Node.alike_headBlock same isType loud ?_ (fun _ => .inr ⟨rfl, rfl⟩) .nil _ _
  rfl

omit same in
/-- The row of an entry opens a block if its text assigns one, and is a statement otherwise. -/
theorem Nesting.read_entry (isHead : IsHead key.toList) (x : Quoted) (s : Nesting) :
    s.read ⟨sentence key x, first, last, heredocs⟩ =
      if assignsBlock x.text then
        ⟨⟨.sealed, ⟨sentence key x, first, last, heredocs⟩, [],
          ⟨.body, sentence key x, first, []⟩⟩ :: s.stack, s.root⟩
      else s.add (.statement ⟨sentence key x, first, last, heredocs⟩) := by
  rw [Nesting.read, ofText_entry isHead]
  split_ifs <;> rfl

/-- Entries whose texts both assign a block, or both none, keep what is read alike, -/
theorem Nesting.Alike.read_entry (alike : s.Alike o o' s') (isHead : IsHead key.toList)
    {x y : Quoted} (loud : assignsBlock x.text = assignsBlock y.text) :
    Nesting.Alike o o' (s.read ⟨sentence key x, first, last, heredocs⟩)
      (s'.read ⟨sentence key y, first, last, heredocs'⟩) := by
  rw [Nesting.read_entry isHead, Nesting.read_entry isHead, ← loud]
  split_ifs with assigns
  · refine ⟨.cons (.sealed ?_ ?_ _ _) alike.stack, alike.root⟩ <;> rfl
  · exact alike.add (Node.alike_entry same isHead x y first last heredocs heredocs')

/-- and so does the row of an `end`. -/
theorem Nesting.Alike.read_close (alike : s.Alike o o' s') :
    Nesting.Alike o o' (s.read ⟨Row.close.text, first, last, heredocs⟩)
      (s'.read ⟨Row.close.text, first, last, heredocs'⟩) := by
  obtain ⟨stack, root⟩ := s
  obtain ⟨stack', root'⟩ := s'
  obtain ⟨blocks, roots⟩ := alike
  rw [Nesting.read, Nesting.read, ofText_close]
  cases blocks with
  | nil => exact ⟨.nil, List.rel_append roots (.cons ⟨fun _ => rfl, fun _ => rfl⟩ .nil)⟩
  | cons innermost others =>
      have outside : Nesting.Alike o o' ⟨_, root⟩ ⟨_, root'⟩ := ⟨others, roots⟩
      exact outside.add (innermost.close same last true)

/-- Alike rows give alike nodes. -/
theorem Nesting.Alike.nodes_foldl {rows rows' : List Row}
    (alike : List.Forall₂ Row.Alike rows rows') (states : s.Alike o o' s')
    (indent number final : Nat) :
    List.Forall₂ (Node.Alike o o')
      (((Row.lines indent number rows).foldl Nesting.read s).nodes final)
      (((Row.lines indent number rows').foldl Nesting.read s').nodes final) := by
  induction alike generalizing s s' number with
  | nil => exact states.nodes same final
  | @cons row row' rows rows' here later ih =>
      have length := later.length_eq
      have empty := here.heredocs_iff
      by_cases calm : row.heredocs = []
      · cases here with
        | blank => exact ih states _
        | head isType agree =>
            rw [Row.lines_cons calm nofun, Row.lines_cons (empty.mp calm) nofun]
            refine ih (states.read_head isType agree.loud fun loop => ?_) _
            exact agree.guard rfl loop (Quoted.opensHeredoc_eq_false.mpr calm)
        | entry isHead agree =>
            rw [Row.lines_cons calm nofun, Row.lines_cons (empty.mp calm) nofun]
            exact ih (states.read_entry same isHead agree.loud) _
        | close =>
            rw [Row.lines_cons calm nofun, Row.lines_cons (empty.mp calm) nofun]
            exact ih (states.read_close same) _
      · rw [Row.lines_of_opens calm, Row.lines_of_opens (mt empty.mpr calm), length]
        cases here with
        | blank | close => exact absurd rfl calm
        | head isType agree => exact states.nodes_read_head same isType agree.loud final
        | entry isHead agree =>
            exact (states.read_entry same isHead agree.loud).nodes same final

end Rows

end Reading

/-! ## The outline of rows -/

section Outline

variable {rows rows' : List Row}

/-- Lines of alike rows end where the others do, -/
theorem map_last_lines (alike : List.Forall₂ Row.Alike rows rows') (indent number : Nat) :
    (Row.lines indent number rows).map (·.last) =
      (Row.lines indent number rows').map (·.last) := by
  induction alike generalizing number with
  | nil => rfl
  | @cons row row' rows rows' here later ih =>
      have length := later.length_eq
      by_cases solid : row = .blank
      · rw [solid, here.blank_iff.mp solid]
        exact ih _
      · have empty := here.heredocs_iff
        by_cases calm : row.heredocs = []
        · rw [Row.lines_cons calm solid, List.map_cons, ih,
            Row.lines_cons (empty.mp calm) (mt here.blank_iff.mpr solid)]
          rfl
        · rw [Row.lines_of_opens calm, Row.lines_of_opens (mt empty.mpr calm), length]
          rfl

/-- and so do all of them together. -/
theorem finalLine_lines (alike : List.Forall₂ Row.Alike rows rows') (indent number : Nat) :
    finalLine (Row.lines indent number rows) = finalLine (Row.lines indent number rows') := by
  rw [finalLine, finalLine, ← List.getLast?_map, ← List.getLast?_map,
    map_last_lines alike indent number]

/-- The outline of what rows declare. -/
def Row.outline (file : String) (types : List String) (indent : Nat) (rows : List Row) :
    List (String × Span) :=
  (SourceFile.extract file types (Row.source indent rows)).outline

/-- The nodes of rows. -/
def Row.nodes (indent : Nat) (rows : List Row) : List Node :=
  let lines := Row.lines indent 1 rows
  (lines.foldl Nesting.read ⟨[], []⟩).nodes (finalLine lines)

/-- The outline of rows is read off their findings, without the texts. -/
theorem Row.outline_eq (file : String) (types : List String) (indent : Nat) (rows : List Row) :
    Row.outline file types indent rows =
      (joined none ((Origin.nodesFindings ⟨file, types, rows.map (Row.written indent)⟩ []
        (Row.nodes indent rows)).map Finding.bare)).flatMap (Finding.outline file) := by
  rw [Row.outline, outline_extract, findingsOf, Row.lines_source, Line.ofSource_rows]
  rfl

/-- Rows that are alike have one outline. -/
theorem Row.outline_congr (alike : List.Forall₂ Row.Alike rows rows') (file : String)
    (types : List String) (indent : Nat) :
    Row.outline file types indent rows = Row.outline file types indent rows' := by
  have nodes : List.Forall₂ (Node.Alike ⟨file, types, rows.map (Row.written indent)⟩
      ⟨file, types, rows'.map (Row.written indent)⟩)
      (Row.nodes indent rows) (Row.nodes indent rows') := by
    rw [Row.nodes, Row.nodes, finalLine_lines alike]
    refine Nesting.Alike.nodes_foldl ?_ alike ?_ indent 1 _
    · exact ⟨rfl, rfl⟩
    · exact ⟨.nil, .nil⟩
  rw [Row.outline_eq, Row.outline_eq, map_bare_nodesFindings nodes]

end Outline

end Rolewright.Recipe
