/-
# What a quoted text has to do with the structure of a recipe

In a recipe of resources one quoted text is replaced by another. The outline stays the same, in
whatever recipe that is done, exactly if the two texts agree (`Slot.keepsOutline_iff`): some texts
are taken for code although they are quoted, and recipes can be found that tell them from others.
-/

import Rolewright.Proofs.Recipe.Agreement

namespace Rolewright.Recipe

open Text

/-! ## Recipes of resources -/

/-- An entry of a body. -/
structure Entry where
  key : String
  isHead : IsHead key.toList
  text : Quoted

/-- A resource as it is written: its head, the entries of its body and an `end`, with blank rows
before it. -/
structure Stanza where
  blanks : Nat
  type : String
  isType : IsType type
  name : Quoted
  entries : List Entry

/-- The row of an entry. -/
def Entry.row (e : Entry) : Row :=
  .entry e.key e.isHead e.text

/-- The rows of a resource. -/
def Stanza.rows (b : Stanza) : List Row :=
  List.replicate b.blanks .blank ++
    .head b.type b.isType b.name :: (b.entries.map Entry.row ++ [.close])

/-- The outline of a recipe of resources. -/
def Stanza.outline (file : String) (types : List String) (indent : Nat) (recipe : List Stanza) :
    List (String × Span) :=
  Row.outline file types indent (recipe.flatMap rows)

/-- One of the quoted texts is replaced: the name, or the text of an entry. -/
inductive Stanza.Replaces : Slot → Quoted → Quoted → Stanza → Stanza → Prop
  | name (b : Stanza) (s t : Quoted) :
      Replaces .name s t { b with name := s } { b with name := t }
  | text (b : Stanza) (before : List Entry) (key : String) (isHead : IsHead key.toList)
      (after : List Entry) (s t : Quoted) :
      Replaces .text s t { b with entries := before ++ ⟨key, isHead, s⟩ :: after }
        { b with entries := before ++ ⟨key, isHead, t⟩ :: after }

/-- In whatever recipe one text is replaced by the other, the outline stays the same. -/
def Slot.KeepsOutline (slot : Slot) (s t : Quoted) : Prop :=
  ∀ (file : String) (types : List String) (indent : Nat) (before after : List Stanza)
    (b b' : Stanza), b.Replaces slot s t b' →
    Stanza.outline file types indent (before ++ b :: after) =
      Stanza.outline file types indent (before ++ b' :: after)

theorem forall₂_alike_refl (rows : List Row) : List.Forall₂ Row.Alike rows rows :=
  List.forall₂_same.mpr fun row _ => .refl row

/-- Resources of which one text is replaced by one that agrees with it have rows that are alike. -/
theorem Stanza.Replaces.alike {slot : Slot} {s t : Quoted} {b b' : Stanza}
    (replaces : b.Replaces slot s t b') (agree : slot.Agree s t) :
    List.Forall₂ Row.Alike b.rows b'.rows := by
  cases replaces with
  | name =>
      exact List.rel_append (forall₂_alike_refl _) (.cons (.head _ agree) (forall₂_alike_refl _))
  | text b before key isHead after =>
      simp only [Stanza.rows, List.map_append, List.map_cons, List.append_assoc,
        List.cons_append]
      refine List.rel_append (forall₂_alike_refl _) (.cons (.refl _) ?_)
      exact List.rel_append (forall₂_alike_refl _)
        (.cons (.entry isHead agree) (forall₂_alike_refl _))

/-- Where a text is replaced by one that agrees with it, the outline stays the same. -/
theorem Slot.Agree.keepsOutline {slot : Slot} {s t : Quoted} (agree : slot.Agree s t) :
    slot.KeepsOutline s t := by
  intro file types indent before after b b' replaces
  rw [Stanza.outline, Stanza.outline, List.flatMap_append, List.flatMap_append,
    List.flatMap_cons, List.flatMap_cons]
  refine Row.outline_congr ?_ file types indent
  exact List.rel_append (forall₂_alike_refl _)
    (List.rel_append (replaces.alike agree) (forall₂_alike_refl _))

/-! ## Recipes that tell texts apart -/

theorem Nesting.nodes_nil (final : Nat) (root : List Node) : nodes final ⟨[], root⟩ = root := by
  rw [nodes, finish]

/-- The row of an `end` closes the innermost block. -/
theorem Nesting.read_close {first last : Nat} {heredocs : List (List Char)} (top : OpenBlock)
    (below : List OpenBlock) (root : List Node) :
    Nesting.read ⟨top :: below, root⟩ ⟨Row.close.text, first, last, heredocs⟩ =
      Nesting.add ⟨below, root⟩ (.block (top.close last true none)) := by
  rw [Nesting.read, ofText_close]

theorem isType_log : IsType "log" where
  starts := by decide
  inner := by decide
  plain := by decide
  lower := by decide
  resource := by decide

theorem isHead_message : IsHead "message".toList where
  starts := by decide
  inner := by decide
  plain := by decide

/-- A text without any meaning of its own. -/
def confFile : Quoted where
  text := "/etc/nginx.conf".toList
  some := by decide
  isQuotable := ⟨by decide, by decide, by decide⟩
  doubleQuote := by decide
  comment := by decide

/-- A text that ends in a call of a loop. -/
def mapFile : Quoted where
  text := "/etc/nginx.map".toList
  some := by decide
  isQuotable := ⟨by decide, by decide, by decide⟩
  doubleQuote := by decide
  comment := by decide

/-- What is found in a recipe, as far as the outline rests on it. -/
def Stanza.findings (recipe : List Stanza) : List Finding :=
  (Origin.nodesFindings ⟨"", [], (recipe.flatMap rows).map (Row.written 0)⟩ []
    (Row.nodes 0 (recipe.flatMap rows))).map Finding.bare

/-- What is declared in outline is read off the findings. -/
theorem Stanza.outline_eq (recipe : List Stanza) :
    Stanza.outline "" [] 0 recipe =
      (joined none (Stanza.findings recipe)).flatMap (Finding.outline "") :=
  Row.outline_eq "" [] 0 _

/-- The line of a head. -/
def headLine (x : Quoted) (first last : Nat) (heredocs : List (List Char)) : Line :=
  ⟨(Row.head "log" isType_log x).text, first, last, heredocs⟩

/-- A block of such a head. -/
def logBlock (x : Quoted) (header : Line) (children : List Node) (last : Nat) (closed : Bool) :
    Node :=
  .block (headBlock "log" x header children last closed)

section Bare

variable (o : Origin) (guards : List Guard) (nodes : List Node)

/-- The block of a `log` is a loop if its name calls one. Otherwise it is a resource, and what its
body holds is found inside. -/
theorem map_bare_logBlock (x : Quoted) (header : Line) (children : List Node) (last : Nat)
    (closed : Bool) :
    (o.nodesFindings guards (logBlock x header children last closed :: nodes)).map Finding.bare =
      (if callsLoop x.text then
        (o.nodesFindings (guards ++ [⟨.loop, String.ofList (sentence "log" x)⟩]) children).map
          Finding.bare
      else
        Finding.ofHead "log" (o.span header.first last) ::
          (o.innerNodes guards children).map Finding.bare) ++
        (o.nodesFindings guards nodes).map Finding.bare := by
  rw [Origin.nodesFindings, List.map_append, logBlock,
    map_bare_nodeFindings_headBlock o guards header children last closed isType_log]

/-- A statement is found by its key and its lines, whatever its text. -/
theorem map_bare_statement {key : String} (isHead : IsHead key.toList) (x : Quoted)
    (first last : Nat) (heredocs : List (List Char)) :
    (o.nodesFindings guards (.statement ⟨sentence key x, first, last, heredocs⟩ :: nodes)).map
        Finding.bare =
      entryFinding o key guards first last :: (o.nodesFindings guards nodes).map Finding.bare := by
  rw [Origin.nodesFindings, List.map_append, Origin.nodeFindings, map_bare_lineFindings isHead]
  rfl

end Bare

section Names

variable (x y : Quoted)

/-- A message to the log. -/
def messageTo (x : Quoted) : Stanza :=
  ⟨0, "log", isType_log, x, [⟨"message", isHead_message, confFile⟩]⟩

/-- The line of its text. -/
def messageLine (number : Nat) : Line :=
  ⟨sentence "message" confFile, number, number, []⟩

/-- What is found where such a message begins on this line. -/
def messageFinding (x : Quoted) (first : Nat) : Finding :=
  if callsLoop x.text then
    .unknown (first + 1) (first + 1) [⟨.loop, String.ofList (sentence "log" x)⟩]
  else .ofHead "log" ⟨"", first, first + 2⟩

/-- Two messages are found one after the other if neither announces a heredoc. -/
theorem findings_messages (calm : x.opensHeredoc = false) (calm' : y.opensHeredoc = false) :
    Stanza.findings [messageTo x, messageTo y] = [messageFinding x 1, messageFinding y 4] := by
  have none := Quoted.opensHeredoc_eq_false.mp calm
  have none' := Quoted.opensHeredoc_eq_false.mp calm'
  have plain : Heredoc.opened confFile.text = [] := by decide
  have quiet : assignsBlock confFile.text = false := by decide
  have lines : Row.lines 0 1 ([messageTo x, messageTo y].flatMap Stanza.rows) =
      [headLine x 1 1 [], messageLine 2, ⟨Row.close.text, 3, 3, []⟩,
        headLine y 4 4 [], messageLine 5, ⟨Row.close.text, 6, 6, []⟩] := by
    change Row.lines 0 1 [.head "log" isType_log x, .entry "message" isHead_message confFile,
      .close, .head "log" isType_log y, .entry "message" isHead_message confFile, .close] = _
    simp only [Row.lines, Row.heredocs, none, none', plain, if_true]
    rfl
  have nodes : Row.nodes 0 ([messageTo x, messageTo y].flatMap Stanza.rows) =
      [logBlock x (headLine x 1 1 []) [.statement (messageLine 2)] 3 true,
        logBlock y (headLine y 4 4 []) [.statement (messageLine 5)] 6 true] := by
    rw [Row.nodes, lines]
    simp only [List.foldl_cons, List.foldl_nil, headLine, messageLine, Nesting.read_head,
      Nesting.read_entry isHead_message, quiet, Nesting.add, Nesting.read_close,
      Nesting.nodes_nil, Bool.false_eq_true, if_false]
    rfl
  rw [Stanza.findings, nodes]
  simp only [map_bare_logBlock, messageLine, map_bare_statement _ _ _ isHead_message,
    messageFinding]
  split_ifs <;> rfl

/-- A heredoc that is announced in the first of them swallows the second, which leaves one open
block. -/
theorem findings_messages_of_heredoc (opens : x.opensHeredoc = true) :
    Stanza.findings [messageTo x, messageTo y] =
      if callsLoop x.text then [] else [.ofHead "log" ⟨"", 1, 6⟩] := by
  have some : (Row.head "log" isType_log x).heredocs ≠ [] := by
    intro none
    rw [Quoted.opensHeredoc_eq_false.mpr none] at opens
    cases opens
  obtain ⟨heredocs, lines⟩ : ∃ heredocs,
      Row.lines 0 1 ([messageTo x, messageTo y].flatMap Stanza.rows) =
        [headLine x 1 6 heredocs] := by
    exact ⟨_, Row.lines_of_opens some ..⟩
  have nodes : Row.nodes 0 ([messageTo x, messageTo y].flatMap Stanza.rows) =
      [logBlock x (headLine x 1 6 heredocs) [] 6 false] := by
    rw [Row.nodes, lines]
    simp only [List.foldl_cons, List.foldl_nil, headLine, Nesting.read_head, Nesting.add,
      Nesting.nodes_push, Nesting.nodes_nil]
    rfl
  rw [Stanza.findings, nodes]
  rw [map_bare_logBlock]
  split_ifs <;> rfl

end Names

section Texts

variable (x : Quoted)

/-- A message in a loop, and a message after it. -/
def messageInLoop (x : Quoted) : List Stanza :=
  [⟨0, "log", isType_log, mapFile, [⟨"log", isType_log.toIsHead, x⟩]⟩,
    ⟨0, "log", isType_log, confFile, []⟩]

/-- Its rows. -/
def loopRows (x : Quoted) : List Row :=
  [.head "log" isType_log mapFile, .entry "log" isType_log.toIsHead x, .close,
    .head "log" isType_log confFile, .close]

/-- The guard of the loop. -/
def loopGuard : Guard :=
  ⟨.loop, String.ofList (sentence "log" mapFile)⟩

/-- A block that an assignment in the text opens. -/
def sealedBlock (header : Line) (last : Nat) (closed : Bool) : Node :=
  .block ⟨.sealed, header, [⟨.body, header.text, header.first, []⟩], last, closed, none⟩

theorem callsLoop_mapFile : callsLoop mapFile.text = true := by
  decide

theorem callsLoop_confFile : callsLoop confFile.text = false := by
  decide

/-- Where no heredoc is announced, each row of the loop and of the message behind it is a line. -/
theorem lines_loopRows (calm : x.opensHeredoc = false) :
    Row.lines 0 1 (loopRows x) =
      [headLine mapFile 1 1 [], ⟨sentence "log" x, 2, 2, []⟩, ⟨Row.close.text, 3, 3, []⟩,
        headLine confFile 4 4 [], ⟨Row.close.text, 5, 5, []⟩] := by
  have plain := Quoted.opensHeredoc_eq_false.mp calm
  have map : Heredoc.opened mapFile.text = [] := by decide
  have conf : Heredoc.opened confFile.text = [] := by decide
  simp only [loopRows, Row.lines, Row.heredocs, plain, map, conf, if_true]
  rfl

/-- Where one is announced, it takes all rows from there on. -/
theorem exists_lines_loopRows (opens : x.opensHeredoc = true) :
    ∃ heredocs, Row.lines 0 1 (loopRows x) =
      [headLine mapFile 1 1 [], ⟨sentence "log" x, 2, 5, heredocs⟩] := by
  have some : (Row.entry "log" isType_log.toIsHead x).heredocs ≠ [] := by
    intro none
    rw [Quoted.opensHeredoc_eq_false.mpr none] at opens
    cases opens
  have map : (Row.head "log" isType_log mapFile).heredocs = [] := by
    change Heredoc.opened mapFile.text = []
    decide
  rw [loopRows, Row.lines_cons map nofun, Row.lines_of_opens some]
  exact ⟨_, rfl⟩

/-- A message in a loop is found as a resource, or as something that is not understood where its
text assigns a block. The message behind the loop is found by itself. -/
theorem findings_messageInLoop (calm : x.opensHeredoc = false) :
    Stanza.findings (messageInLoop x) =
      [if assignsBlock x.text then .unknown 2 3 [loopGuard] else .ofHead "log" ⟨"", 2, 2⟩,
        .ofHead "log" ⟨"", 4, 5⟩] := by
  change (Origin.nodesFindings _ _ (Row.nodes 0 (loopRows x))).map Finding.bare = _
  by_cases assigns : assignsBlock x.text = true
  · -- the `end` of the loop ends the block that the text opens, and the loop goes on
    have nodes : Row.nodes 0 (loopRows x) =
        [logBlock mapFile (headLine mapFile 1 1 [])
          [sealedBlock ⟨sentence "log" x, 2, 2, []⟩ 3 true,
            logBlock confFile (headLine confFile 4 4 []) [] 5 true] 5 false] := by
      rw [Row.nodes, lines_loopRows x calm]
      simp only [List.foldl_cons, List.foldl_nil, headLine, Nesting.read_head,
        Nesting.read_entry isType_log.toIsHead, assigns, Nesting.add, Nesting.read_close,
        Nesting.nodes_push, Nesting.nodes_nil, if_true]
      rfl
    rw [nodes, if_pos assigns, map_bare_logBlock, if_pos callsLoop_mapFile]
    change _ :: (Origin.nodesFindings _ _ [logBlock confFile _ [] 5 true]).map Finding.bare ++ _ = _
    rw [map_bare_logBlock, callsLoop_confFile]
    rfl
  · have nodes : Row.nodes 0 (loopRows x) =
        [logBlock mapFile (headLine mapFile 1 1 []) [.statement ⟨sentence "log" x, 2, 2, []⟩] 3
          true, logBlock confFile (headLine confFile 4 4 []) [] 5 true] := by
      rw [Row.nodes, lines_loopRows x calm]
      simp only [List.foldl_cons, List.foldl_nil, headLine, Nesting.read_head,
        Nesting.read_entry isType_log.toIsHead, assigns, Nesting.add, Nesting.read_close,
        Nesting.nodes_nil, Bool.false_eq_true, if_false]
      rfl
    rw [nodes, if_neg assigns, map_bare_logBlock, map_bare_logBlock, if_pos callsLoop_mapFile,
      map_bare_statement _ _ _ isType_log.toIsHead, callsLoop_confFile]
    rfl

/-- A heredoc that its text announces takes the message behind the loop with it. -/
theorem findings_messageInLoop_of_heredoc (opens : x.opensHeredoc = true) :
    Stanza.findings (messageInLoop x) =
      [if assignsBlock x.text then .unknown 2 5 [loopGuard] else .ofHead "log" ⟨"", 2, 5⟩] := by
  obtain ⟨heredocs, lines⟩ := exists_lines_loopRows x opens
  change (Origin.nodesFindings _ _ (Row.nodes 0 (loopRows x))).map Finding.bare = _
  by_cases assigns : assignsBlock x.text = true
  · have nodes : Row.nodes 0 (loopRows x) =
        [logBlock mapFile (headLine mapFile 1 1 [])
          [sealedBlock ⟨sentence "log" x, 2, 5, heredocs⟩ 5 false] 5 false] := by
      rw [Row.nodes, lines]
      simp only [List.foldl_cons, List.foldl_nil, headLine, Nesting.read_head,
        Nesting.read_entry isType_log.toIsHead, assigns, Nesting.add, Nesting.nodes_push,
        Nesting.nodes_nil, if_true]
      rfl
    rw [nodes, if_pos assigns, map_bare_logBlock, if_pos callsLoop_mapFile]
    rfl
  · have nodes : Row.nodes 0 (loopRows x) =
        [logBlock mapFile (headLine mapFile 1 1 [])
          [.statement ⟨sentence "log" x, 2, 5, heredocs⟩] 5 false] := by
      rw [Row.nodes, lines]
      simp only [List.foldl_cons, List.foldl_nil, headLine, Nesting.read_head,
        Nesting.read_entry isType_log.toIsHead, assigns, Nesting.add, Nesting.nodes_push,
        Nesting.nodes_nil, Bool.false_eq_true, if_false]
      rfl
    rw [nodes, if_neg assigns, map_bare_logBlock, if_pos callsLoop_mapFile,
      map_bare_statement _ _ _ isType_log.toIsHead]
    rfl

end Texts

/-! ## Texts that keep the outline -/

/-- The outline of two messages, by what the name of the first is taken for. -/
def messagesOutline (heredoc loop : Bool) : List (String × Span) :=
  match heredoc, loop with
  | false, false => [("log", ⟨"", 1, 3⟩), ("log", ⟨"", 4, 6⟩)]
  | false, true => [(unparsedType, ⟨"", 2, 2⟩), ("log", ⟨"", 4, 6⟩)]
  | true, false => [("log", ⟨"", 1, 6⟩)]
  | true, true => []

/-- The outline of a message in a loop and one after it, by what the text of the first is taken
for. -/
def loopOutline (heredoc assigns : Bool) : List (String × Span) :=
  match heredoc, assigns with
  | false, false => [("log", ⟨"", 2, 2⟩), ("log", ⟨"", 4, 5⟩)]
  | false, true => [(unparsedType, ⟨"", 2, 3⟩), ("log", ⟨"", 4, 5⟩)]
  | true, false => [("log", ⟨"", 2, 5⟩)]
  | true, true => [(unparsedType, ⟨"", 2, 5⟩)]

/-- The outline of two messages tells whether the first announces a heredoc and whether it calls a
loop. -/
theorem outline_messages (x : Quoted) :
    Stanza.outline "" [] 0 [messageTo x, messageTo confFile] =
      messagesOutline x.opensHeredoc (callsLoop x.text) := by
  rw [Stanza.outline_eq]
  cases opens : x.opensHeredoc with
  | false =>
      rw [findings_messages x confFile opens (by decide), messageFinding]
      cases callsLoop x.text <;> rfl
  | true =>
      rw [findings_messages_of_heredoc x confFile opens]
      cases callsLoop x.text <;> rfl

/-- The outline of a message in a loop tells whether it announces a heredoc and whether it assigns a
block. -/
theorem outline_messageInLoop (x : Quoted) :
    Stanza.outline "" [] 0 (messageInLoop x) =
      loopOutline x.opensHeredoc (assignsBlock x.text) := by
  rw [Stanza.outline_eq]
  cases opens : x.opensHeredoc with
  | false =>
      rw [findings_messageInLoop x opens]
      cases assignsBlock x.text <;> rfl
  | true =>
      rw [findings_messageInLoop_of_heredoc x opens]
      cases assignsBlock x.text <;> rfl

/-- These outlines are all different, -/
theorem messagesOutline_inj : ∀ {heredoc loop heredoc' loop' : Bool},
    messagesOutline heredoc loop = messagesOutline heredoc' loop' →
      heredoc = heredoc' ∧ loop = loop' := by
  decide

/-- and so are those of the loop. -/
theorem loopOutline_inj : ∀ {heredoc assigns heredoc' assigns' : Bool},
    loopOutline heredoc assigns = loopOutline heredoc' assigns' →
      heredoc = heredoc' ∧ assigns = assigns' := by
  decide

section Keeping

variable {s t : Quoted}

/-- Loops are told apart by their heads, as stretches of both are joined or not. -/
theorem text_eq_of_outline_eq (calm : s.opensHeredoc = false) (calm' : t.opensHeredoc = false)
    (loop : callsLoop s.text = true) (loop' : callsLoop t.text = true)
    (same : Stanza.outline "" [] 0 [messageTo s, messageTo s] =
      Stanza.outline "" [] 0 [messageTo s, messageTo t]) : s.text = t.text := by
  by_contra differ
  have other : String.ofList (sentence "log" s) ≠ String.ofList (sentence "log" t) := by
    intro guards
    have heads := String.ofList_injective guards
    simp only [sentence, quoting, List.append_cancel_left_eq, List.cons.injEq, true_and] at heads
    exact differ (List.append_inj_left' heads rfl)
  rw [Stanza.outline_eq, Stanza.outline_eq, findings_messages s s calm calm,
    findings_messages s t calm calm'] at same
  simp [messageFinding, loop, loop', joined, other, Finding.outline, Stretch.finding] at same

/-- Names that may replace each other in every recipe agree, since a recipe of two messages tells
others apart. -/
theorem agree_of_keepsOutline_name (keeps : Slot.name.KeepsOutline s t) :
    Slot.name.Agree s t := by
  have first := keeps "" [] 0 [] [messageTo confFile] _ _ (.name (messageTo s) s t)
  have taken := messagesOutline_inj
    ((outline_messages s).symm.trans (first.trans (outline_messages t)))
  refine ⟨taken.1, taken.2, fun _ loop calm => ?_⟩
  have second := keeps "" [] 0 [messageTo s] [] _ _ (.name (messageTo s) s t)
  exact text_eq_of_outline_eq calm (taken.1 ▸ calm) loop (taken.2 ▸ loop) second

/-- So do other texts, which a message in a loop tells apart. -/
theorem agree_of_keepsOutline_text (keeps : Slot.text.KeepsOutline s t) :
    Slot.text.Agree s t := by
  have first : Stanza.outline "" [] 0 (messageInLoop s) =
      Stanza.outline "" [] 0 (messageInLoop t) :=
    keeps "" [] 0 [] _ _ _ (.text ⟨0, "log", isType_log, mapFile, []⟩ [] "log"
      isType_log.toIsHead [] s t)
  have taken := loopOutline_inj
    ((outline_messageInLoop s).symm.trans (first.trans (outline_messageInLoop t)))
  exact ⟨taken.1, taken.2, nofun⟩

end Keeping

/-- A text may take the place of another in every recipe, without a change to the outline, exactly
if both are taken for the same. -/
theorem Slot.keepsOutline_iff (slot : Slot) (s t : Quoted) :
    slot.KeepsOutline s t ↔ slot.Agree s t := by
  refine ⟨fun keeps => ?_, Slot.Agree.keepsOutline⟩
  cases slot with
  | name => exact agree_of_keepsOutline_name keeps
  | text => exact agree_of_keepsOutline_text keeps

/-- A text with an assignment from a block. -/
def assignmentText : Quoted where
  text := "x = if y".toList
  some := by decide
  isQuotable := ⟨by decide, by decide, by decide⟩
  doubleQuote := by decide
  comment := by decide

/-- A text that opens a heredoc. -/
def heredocText : Quoted where
  text := "x <<-EOS".toList
  some := by decide
  isQuotable := ⟨by decide, by decide, by decide⟩
  doubleQuote := by decide
  comment := by decide

/-- The content of quotes is not free: a name of a file becomes a loop, a text an assignment, and
either a heredoc. -/
theorem not_keepsOutline_loudTexts :
    ¬Slot.name.KeepsOutline confFile mapFile ∧ ¬Slot.text.KeepsOutline confFile assignmentText ∧
      ¬Slot.name.KeepsOutline confFile heredocText ∧
        ¬Slot.text.KeepsOutline confFile heredocText := by
  refine ⟨fun keeps => ?_, fun keeps => ?_, fun keeps => ?_, fun keeps => ?_⟩
  · exact absurd (agree_of_keepsOutline_name keeps).loud (by decide)
  · exact absurd (agree_of_keepsOutline_text keeps).loud (by decide)
  · exact absurd (agree_of_keepsOutline_name keeps).heredoc (by decide)
  · exact absurd (agree_of_keepsOutline_text keeps).heredoc (by decide)

end Rolewright.Recipe
