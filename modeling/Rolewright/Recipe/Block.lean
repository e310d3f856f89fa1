/-
# Blocks

The nesting of a recipe: statements, the blocks that hold them, and the arms of those blocks. An
`end` that closes nothing stays visible as a stray, and a block that is never closed ends with the
source.
-/

import Rolewright.Recipe.Line
import Rolewright.Recipe.OneLine

namespace Rolewright.Recipe

open Text

/-- What opens a block. -/
inductive BlockKind where
  /-- A call with a block: the text before `do`, and the parameters between bars. -/
  | call (head : List Char) (params : Option (List Char))
  | ifElse
  | unlessElse
  | caseWhen
  | begin
  /-- One of `while`, `until` and `for`. -/
  | loop
  /-- A definition, or a block whose value is assigned; its statements are none of ours. -/
  | sealed
deriving DecidableEq, Repr

/-- The word that opens an arm of a block. The first arm is the `body`. -/
inductive Arm where
  | body
  | elsif
  | when
  | rescue
  | otherwise
  | ensure
deriving DecidableEq, Repr

/-- An arm of a block and what it holds. -/
structure Branch (α : Type) where
  arm : Arm
  condition : List Char
  line : Nat
  children : List α
deriving Repr

/-- A block and its arms. -/
structure BlockOf (α : Type) where
  kind : BlockKind
  header : Line
  branches : List (Branch α)
  /-- The line of its `end`, or the last line of the source. -/
  last : Nat
  closed : Bool
  /-- The condition behind its `end`. -/
  modifier : Option Modifier
deriving Repr

/-- A node of the nesting. -/
inductive Node where
  | statement (line : Line)
  /-- An `end` without an open block. -/
  | stray (line : Line)
  | block (block : BlockOf Node)
deriving Repr

/-- A block over nodes. -/
abbrev Block := BlockOf Node

namespace Node

/-- The first physical line of a node. -/
def first : Node → Nat
  | .statement line | .stray line => line.first
  | .block b => b.header.first

/-- The last physical line of a node. -/
def last : Node → Nat
  | .statement line | .stray line => line.last
  | .block b => b.last

end Node

/-- Everything a block holds, over all its arms. -/
def BlockOf.children {α : Type} (block : BlockOf α) : List α :=
  block.branches.flatMap (·.children)

/-! ## The part a line plays -/

/-- The part a line plays in the nesting. -/
inductive LineRole where
  | opens (kind : BlockKind) (condition : List Char)
  | arm (arm : Arm) (condition : List Char)
  | ends (modifier : Option Modifier)
  | statement
deriving DecidableEq, Repr

/-- Whether a line closes the block that it opens. -/
def isOneLiner (text : List Char) : Bool :=
  " end".toList.isSuffixOf text || ";end".toList.isSuffixOf text || text == "end".toList

/-- The condition of an arm, up to a `then`. -/
def armCondition (rest : List Char) : List Char :=
  let head := (splitAtFirst? " then ".toList rest).elim rest (·.1)
  trim (withoutSuffix " then".toList head)

/-- The part a line plays by its first word. -/
def keywordRole? (text : List Char) : Option LineRole :=
  let word := leadingWord text
  let rest := trim (text.drop word.length)
  let alone := rest.isEmpty
  let is (keyword : String) : Bool := word == keyword.toList
  if is "end" then
    if alone || rest.head? == some '.' || rest.head? == some ')' then some (.ends none)
    else
      match splitModifier text with
      | (head, some modifier) => if head = "end".toList then some (.ends (some modifier)) else none
      | _ => none
  else if is "if" || is "unless" then
    if isOneLiner text then none
    else
      some (.opens (if is "if" then .ifElse else .unlessElse)
        (trim (withoutSuffix " then".toList rest)))
  else if is "elsif" then some (.arm .elsif (armCondition rest))
  else if is "when" then some (.arm .when (armCondition rest))
  else if is "rescue" then some (.arm .rescue (armCondition rest))
  else if is "else" then if alone then some (.arm .otherwise []) else none
  else if is "ensure" then if alone then some (.arm .ensure []) else none
  else if is "case" then if isOneLiner text then none else some (.opens .caseWhen rest)
  else if is "begin" then if alone then some (.opens .begin []) else none
  else if is "while" || is "until" || is "for" then
    if isOneLiner text then none
    else some (.opens .loop (word ++ ' ' :: trim (withoutSuffix " do".toList rest)))
  else if is "def" || is "class" || is "module" then
    if isOneLiner text then none else some (.opens .sealed text)
  else none

/-- What may follow the `do` at the end of a line: parameters between bars, or nothing. The outer
option says whether the text is of that form. -/
def blockTail? (rest : List Char) : Option (Option (List Char)) :=
  match trimStart rest with
  | [] => some none
  | c :: cs =>
    if c == '|' then
      match splitAtFirst? ['|'] cs with
      | some (params, rest) => if isBlankText rest then some (some (trim params)) else none
      | none => none
    else none

/-- The text before a `do` that ends a line, read so far backwards, and the parameters after it.
The `do` begins a word. -/
def blockHeader? (read : List Char) : List Char → Option (List Char × Option (List Char))
  | [] => none
  | c :: cs =>
    let here :=
      if atBoundary read then (afterPrefix? "do".toList (c :: cs)).bind blockTail? else none
    match here with
    | some params => some (trim read.reverse, params)
    | none => blockHeader? (c :: read) cs

/-- A call that opens a block. Its head stands on one line. -/
def callBlock? (text : List Char) : Option BlockKind :=
  match blockHeader? [] text with
  | some (head, params) => if head.contains '\n' then none else some (.call head params)
  | none => none

/-- Whether an assignment takes its value from a block. -/
def assignsBlock : List Char → Bool
  | [] => false
  | c :: cs =>
    (c == '=' &&
        ["if", "unless", "case", "begin"].any fun keyword =>
          (afterPrefix? keyword.toList (trimStart cs)).any atBoundary) ||
      assignsBlock cs

/-- The part a line plays. -/
def LineRole.ofText (text : List Char) : LineRole :=
  match keywordRole? text with
  | some role => role
  | none =>
    match callBlock? text with
    | some kind => .opens kind []
    | none => if assignsBlock text && !isOneLiner text then .opens .sealed text else .statement

/-! ## Building the nesting -/

/-- Whether a block of this kind has such an arm. -/
def BlockKind.accepts : BlockKind → Arm → Bool
  | .ifElse, arm | .unlessElse, arm => arm == .elsif || arm == .otherwise
  | .caseWhen, arm => arm == .when || arm == .otherwise
  | .begin, arm | .call .., arm | .sealed, arm =>
    arm == .rescue || arm == .ensure || arm == .otherwise
  | .loop, _ => false

/-- A block that is not closed yet: its finished arms and the one being filled. -/
structure OpenBlock where
  kind : BlockKind
  header : Line
  finished : List (Branch Node)
  current : Branch Node

namespace OpenBlock

/-- Adds a node to the arm being filled. -/
def add (b : OpenBlock) (node : Node) : OpenBlock :=
  { b with current := { b.current with children := b.current.children ++ [node] } }

/-- Finishes the arm being filled and opens another. -/
def openArm (b : OpenBlock) (arm : Arm) (condition : List Char) (line : Nat) : OpenBlock :=
  { b with finished := b.finished ++ [b.current], current := ⟨arm, condition, line, []⟩ }

/-- The block, ended at a line. -/
def close (b : OpenBlock) (last : Nat) (closed : Bool) (modifier : Option Modifier) : Block :=
  ⟨b.kind, b.header, b.finished ++ [b.current], last, closed, modifier⟩

end OpenBlock

/-- The nesting while lines are read: the open blocks, innermost first, and the finished nodes
outside them. -/
structure Nesting where
  stack : List OpenBlock
  root : List Node

namespace Nesting

/-- Adds a node where the reading stands. -/
def add (s : Nesting) (node : Node) : Nesting :=
  match s.stack with
  | [] => { s with root := s.root ++ [node] }
  | top :: below => { s with stack := top.add node :: below }

/-- Reads one line. An arm that the innermost block does not have is a statement. -/
def read (s : Nesting) (line : Line) : Nesting :=
  match LineRole.ofText line.text with
  | .opens kind condition =>
    { s with stack := ⟨kind, line, [], ⟨.body, condition, line.first, []⟩⟩ :: s.stack }
  | .arm arm condition =>
    match s.stack with
    | top :: below =>
      if top.kind.accepts arm then
        { s with stack := top.openArm arm condition line.first :: below }
      else s.add (.statement line)
    | [] => s.add (.statement line)
  | .ends modifier =>
    match s.stack with
    | top :: below =>
      Nesting.add { s with stack := below } (.block (top.close line.last true modifier))
    | [] => { s with root := s.root ++ [.stray line] }
  | .statement => s.add (.statement line)

/-- Closes the blocks still open where the source ends, the innermost first. -/
def finish (last : Nat) : List OpenBlock → List Node → List Node
  | [], root => root
  | top :: below, root =>
    let node := Node.block (top.close (max last top.header.last) false none)
    match below with
    | [] => root ++ [node]
    | next :: rest => finish last (next.add node :: rest) root
termination_by stack => stack.length

end Nesting

/-- The nesting of a list of lines. -/
def Node.ofLines (lines : List Line) : List Node :=
  let s := lines.foldl Nesting.read ⟨[], []⟩
  Nesting.finish ((lines.getLast?.map (·.last)).getD 0) s.stack s.root

end Rolewright.Recipe
