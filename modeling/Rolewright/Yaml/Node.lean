/-
# Nodes of YAML

The tree that the tokens of a document spell, before its scalars mean anything. Where reading
stopped there is a cut, and everything before it is kept: whoever gives the tree a meaning, from
the front, meets a fault of meaning first if it stands before the fault of form.

Anchors are numbered by how many names are known when they are met. A name that is anchored anew
takes such a number too, and the last node of a number is the one that aliases denote.
-/

import Rolewright.Yaml.Token

namespace Rolewright.Yaml

/-- Where a node starts, and what was written in front of it. -/
structure Properties where
  line : Nat
  tag : Option (List Char)
  anchor : Option Nat
deriving Repr, Inhabited

/-- A node of a document. -/
inductive Node where
  | scalar (properties : Properties) (isPlain : Bool) (text : List Char)
  | sequence (properties : Properties) (items : List Node)
  | mapping (properties : Properties) (entries : List (Node × Node))
  | alias (anchor : Nat)
  | cut (line : Nat)
deriving Repr, Inhabited

/-- What is still to read, and what was met on the way. -/
structure Reading where
  tokens : List Token
  /-- Whether a cut was made. -/
  stopped : Bool
  /-- The names of anchors, each with its number. -/
  anchors : List (List Char × Nat)
  /-- The tag handles that are known, each with what it stands for. -/
  handles : List (List Char × List Char)
  /-- How many scalars, aliases and ends of collections were read. -/
  events : Nat

namespace Reading

/-- The next token. -/
def peek (r : Reading) : Token :=
  r.tokens.headD ⟨.fault, 0⟩

/-- The kind of the next token. -/
def kind (r : Reading) : TokenKind :=
  r.peek.kind

/-- Moves over a token. -/
def skip (r : Reading) : Reading :=
  { r with tokens := r.tokens.drop 1 }

/-- Whether one of several tokens comes next. -/
def seesAny (r : Reading) (kinds : List TokenKind) : Bool :=
  kinds.contains r.kind

/-- Counts something read. -/
def count (r : Reading) : Reading :=
  { r with events := r.events + 1 }

/-- Stops at the next token. -/
def stop (r : Reading) : Node × Reading :=
  (.cut r.peek.line, { r with stopped := true })

/-- Remembers an anchor. -/
def anchor (r : Reading) (name : Option (List Char)) : Option Nat × Reading :=
  match name with
  | none => (none, r)
  | some name =>
    let number := r.anchors.length
    let others := r.anchors.filter fun entry => entry.1 != name
    (some number, { r with anchors := (name, number) :: others })

/-- An empty scalar, unless reading stops here. -/
def empty (r : Reading) : Node × Reading :=
  if r.kind == .fault then r.stop
  else (.scalar ⟨r.peek.line, none, none⟩ true [], r.count)

end Reading

/-- The anchor and the tag in front of a node, as they are written. -/
structure Prelude where
  anchor : Option (List Char)
  tag : Option (List Char × List Char)
  tagLine : Nat

/-- Reads an anchor and a tag, in either order. -/
def Prelude.read (r : Reading) : Prelude × Reading :=
  match r.kind with
  | .anchor name =>
    let r := r.skip
    match r.kind with
    | .tag handle suffix => (⟨some name, some (handle, suffix), r.peek.line⟩, r.skip)
    | _ => (⟨some name, none, 0⟩, r)
  | .tag handle suffix =>
    let line := r.peek.line
    let r := r.skip
    match r.kind with
    | .anchor name => (⟨some name, some (handle, suffix), line⟩, r.skip)
    | _ => (⟨none, some (handle, suffix), line⟩, r)
  | _ => (⟨none, none, 0⟩, r)

/-- The tag that a handle and a suffix spell, unless the handle is unknown. -/
def Prelude.fullTag (p : Prelude) (r : Reading) : Except Unit (Option (List Char)) :=
  match p.tag with
  | none => .ok none
  | some (handle, suffix) =>
    if handle.isEmpty then .ok (some suffix)
    else
      match r.handles.lookup handle with
      | some lead => .ok (some (lead ++ suffix))
      | none => .error ()

mutual

/-- Reads a node. Block collections may start here if `block`, lists without indentation if
`indentless`. -/
def Node.read : Nat → Bool → Bool → Reading → Node × Reading
  | 0, _, _, r => r.stop
  | fuel + 1, block, indentless, r =>
    let line := r.peek.line
    match r.kind with
    | .alias name =>
      match r.anchors.lookup name with
      | some number => (.alias number, r.skip.count)
      | none => r.stop
    | _ =>
      let (lead, r) := Prelude.read r
      match r.kind, lead.fullTag r with
      | .fault, _ => r.stop
      | _, .error _ => (.cut lead.tagLine, { r with stopped := true })
      | kind, .ok tag =>
        let (number, anchored) := r.anchor lead.anchor
        let properties : Properties := ⟨line, tag, number⟩
        let close (finished : List Node × Reading) : Node × Reading :=
          (.sequence properties finished.1, finished.2)
        let closeMap (finished : List (Node × Node) × Reading) : Node × Reading :=
          (.mapping properties finished.1, finished.2)
        match kind with
        | .scalar isPlain text =>
          -- A lone exclamation mark says that the text is to be read as if it were plain.
          let lone := tag == some ['!']
          let properties := if lone then { properties with tag := none } else properties
          (.scalar properties isPlain text, anchored.skip.count)
        | .flowSequence => close (Node.flowItems fuel true [] anchored.skip.count)
        | .flowMapping => closeMap (Node.flowEntries fuel true [] anchored.skip.count)
        | other =>
          if other == .blockEntry && indentless then
            close (Node.indentlessItems fuel [] anchored.count)
          else if other == .blockSequence && block then
            close (Node.blockItems fuel [] anchored.skip.count)
          else if other == .blockMapping && block then
            closeMap (Node.blockEntries fuel [] anchored.skip.count)
          else if lead.anchor.isSome || tag.isSome then
            (.scalar properties true [], anchored.count)
          else r.stop

/-- The items of a block list. -/
def Node.blockItems : Nat → List Node → Reading → List Node × Reading
  | 0, items, r => (items.reverse ++ [r.stop.1], r.stop.2)
  | fuel + 1, items, r =>
    match r.kind with
    | .blockEntry =>
      let r := r.skip
      let (item, r) :=
        if r.seesAny [.blockEntry, .blockEnd] then r.empty else Node.read fuel true false r
      if r.stopped then ((item :: items).reverse, r) else Node.blockItems fuel (item :: items) r
    | .blockEnd => (items.reverse, r.skip.count)
    | _ => (items.reverse ++ [r.stop.1], r.stop.2)

/-- The items of a list that is not indented under its key. -/
def Node.indentlessItems : Nat → List Node → Reading → List Node × Reading
  | 0, items, r => (items.reverse ++ [r.stop.1], r.stop.2)
  | fuel + 1, items, r =>
    match r.kind with
    | .blockEntry =>
      let r := r.skip
      let (item, r) :=
        if r.seesAny [.blockEntry, .key, .value, .blockEnd] then r.empty
        else Node.read fuel true false r
      if r.stopped then ((item :: items).reverse, r)
      else Node.indentlessItems fuel (item :: items) r
    | .fault => (items.reverse ++ [r.stop.1], r.stop.2)
    | _ => (items.reverse, r.count)

/-- The entries of a block map. -/
def Node.blockEntries : Nat → List (Node × Node) → Reading → List (Node × Node) × Reading
  | 0, entries, r => (entries.reverse ++ [(r.stop.1, r.stop.1)], r.stop.2)
  | fuel + 1, entries, r =>
    let part (r : Reading) : Node × Reading :=
      if r.seesAny [.key, .value, .blockEnd] then r.empty else Node.read fuel true true r
    match r.kind with
    | .blockEnd => (entries.reverse, r.skip.count)
    | .key =>
      let (key, r) := part r.skip
      if r.stopped then ((((key, key)) :: entries).reverse, r)
      else
        let (value, r) := if r.kind == .value then part r.skip else r.empty
        if r.stopped then (((key, value) :: entries).reverse, r)
        else Node.blockEntries fuel ((key, value) :: entries) r
    | _ => (entries.reverse ++ [(r.stop.1, r.stop.1)], r.stop.2)

/-- The items of a list in brackets. An item may be a single pair. -/
def Node.flowItems : Nat → Bool → List Node → Reading → List Node × Reading
  | 0, _, items, r => (items.reverse ++ [r.stop.1], r.stop.2)
  | fuel + 1, first, items, r =>
    if r.kind == .flowSequenceEnd then (items.reverse, r.skip.count)
    else if !first && r.kind != .flowEntry then (items.reverse ++ [r.stop.1], r.stop.2)
    else
      let r := if first then r else r.skip
      if r.kind == .flowSequenceEnd then (items.reverse, r.skip.count)
      else
        let (item, r) :=
          if r.kind == .key then Node.flowPair fuel r else Node.read fuel false false r
        if r.stopped then ((item :: items).reverse, r)
        else Node.flowItems fuel false (item :: items) r

/-- A pair that stands as an item of a list in brackets. -/
def Node.flowPair : Nat → Reading → Node × Reading
  | 0, r => r.stop
  | fuel + 1, r =>
    let properties : Properties := ⟨r.peek.line, none, none⟩
    let r := r.skip.count
    let (key, r) :=
      if r.seesAny [.value, .flowEntry, .flowSequenceEnd] then
        -- The token that shows that there is no key is passed over with it.
        let (key, after) := r.empty
        (key, after.skip)
      else Node.read fuel false false r
    if r.stopped then (.mapping properties [(key, key)], r)
    else
      let r' := if r.kind == .value then r.skip else r
      let (value, r) :=
        if r.kind == .value && !r'.seesAny [.flowEntry, .flowSequenceEnd] then
          Node.read fuel false false r'
        else r'.empty
      if r.stopped then (.mapping properties [(key, value)], r)
      else if r.kind == .fault then
        (.mapping properties [(key, value), (r.stop.1, r.stop.1)], r.stop.2)
      else (.mapping properties [(key, value)], r.count)

/-- The entries of a map in braces. -/
def Node.flowEntries : Nat → Bool → List (Node × Node) → Reading → List (Node × Node) × Reading
  | 0, _, entries, r => (entries.reverse ++ [(r.stop.1, r.stop.1)], r.stop.2)
  | fuel + 1, first, entries, r =>
    if r.kind == .flowMappingEnd then (entries.reverse, r.skip.count)
    else if !first && r.kind != .flowEntry then
      (entries.reverse ++ [(r.stop.1, r.stop.1)], r.stop.2)
    else
      let r := if first then r else r.skip
      let part (r : Reading) (ends : List TokenKind) : Node × Reading :=
        if r.seesAny ends then r.empty else Node.read fuel false false r
      if r.kind == .flowMappingEnd then (entries.reverse, r.skip.count)
      else
        let marked := r.kind == .key
        let (key, r) :=
          if marked then part r.skip [.value, .flowEntry, .flowMappingEnd]
          else Node.read fuel false false r
        if r.stopped then ((((key, key)) :: entries).reverse, r)
        else
          let (value, r) :=
            if marked && r.kind == .value then part r.skip [.flowEntry, .flowMappingEnd]
            else r.empty
          if r.stopped then (((key, value) :: entries).reverse, r)
          else Node.flowEntries fuel false ((key, value) :: entries) r

end

/-! ## Documents -/

/-- What comes after the root of a document. -/
inductive Ending where
  | whole
  /-- Another document, or something that is none. -/
  | more
  /-- The end of the document could not be found. -/
  | faulty (line : Nat)

/-- What a text holds. -/
inductive Content where
  | nothing
  | document (root : Node) (events : Nat) (ending : Ending)
  /-- A fault before any node. -/
  | faulty (line : Nat)

/-- Reads directives. A version is that of this format and is given once; a handle is given
once. -/
def readDirectives : Nat → Bool → List (List Char × List Char) → Reading →
    Except Nat (List (List Char × List Char) × Reading)
  | 0, _, _, r => .error r.peek.line
  | fuel + 1, versioned, handles, r =>
    match r.kind with
    | .version major minor =>
      if versioned || major != 1 || !(minor == 1 || minor == 2) then .error r.peek.line
      else readDirectives fuel true handles r.skip
    | .tagHandle handle lead =>
      if (handles.lookup handle).isSome then .error r.peek.line
      else readDirectives fuel versioned (handles ++ [(handle, lead)]) r.skip
    | .fault => .error r.peek.line
    | _ => .ok (handles, r)

/-- The handles that every document knows. -/
def commonHandles : List (List Char × List Char) :=
  [(['!'], ['!']), (['!', '!'], "tag:yaml.org,2002:".toList)]

/-- Moves over the marks that end documents. -/
def Reading.skipEnds (r : Reading) : Reading :=
  { r with tokens := r.tokens.dropWhile fun t => t.kind == .documentEnd }

/-- What the tokens of a text hold. -/
def Content.ofTokens (tokens : List Token) : Content :=
  let fuel := 2 * tokens.length + 2
  let start : Reading := ⟨tokens, false, [], [], 0⟩
  let explicit (kind : TokenKind) : Bool :=
    match kind with
    | .version .. | .tagHandle .. | .documentStart => true
    | _ => false
  if start.kind == .streamEnd then .nothing
  else
    match readDirectives fuel false [] start with
    | .error line => .faulty line
    | .ok (handles, r) =>
      let r := { r with handles := handles ++ commonHandles }
      if explicit start.kind && r.kind != .documentStart then .faulty r.peek.line
      else
        let (root, r) :=
          if !explicit start.kind then Node.read fuel true false r
          else
            let r := r.skip
            if explicit r.kind || r.seesAny [.documentEnd, .streamEnd] then r.empty
            else Node.read fuel true false r
        let ending :=
          if r.stopped || r.skipEnds.kind == .streamEnd then .whole
          else if r.kind == .fault then .faulty r.peek.line
          else .more
        .document root r.events ending

end Rolewright.Yaml
