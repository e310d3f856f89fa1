/-
# Reading TOML

A document is a sequence of lines: assignments, headers of tables, comments and empty lines.
Anything else, and any key that is given twice, makes the whole document unreadable.
-/

import Rolewright.Toml.Scalar

namespace Rolewright.Toml

open Text

/-- How deep arrays and tables may nest inside a value. -/
def nestingLimit : Nat := 79

/-- Characters of keys without quotes. -/
def isKeyChar (c : Char) : Bool :=
  c.isAlphanum || c == '_' || c == '-'

/-- One part of a key. -/
def keyPart? (cs : List Char) : Option (String × List Char) :=
  match cs with
  | quote :: rest =>
    if quote == '"' || quote == '\'' then line? quote (rest.length + 1) [] rest
    else
      let name := cs.takeWhile isKeyChar
      if name.isEmpty then none else some (String.ofList name, cs.drop name.length)
  | [] => none

/-- A key: parts with dots between them, blanks around each. -/
def key? : Nat → List Char → Option (List String × List Char)
  | 0, _ => none
  | fuel + 1, cs => do
    let (part, rest) ← keyPart? (skipBlanks cs)
    match skipBlanks rest with
    | '.' :: more =>
      let (parts, rest) ← key? fuel more
      return (part :: parts, rest)
    | rest => return ([part], rest)

/-- What follows a comment, if there is one. -/
def afterComment (cs : List Char) : List Char :=
  match cs with
  | '#' :: rest => rest.dropWhile isPlain
  | _ => cs

/-- Drops blanks, comments and line breaks. -/
def skipLines : Nat → List Char → List Char
  | 0, cs => cs
  | fuel + 1, cs =>
    let rest := afterComment (skipBlanks cs)
    match afterBreak? rest with
    | some more => skipLines fuel more
    | none => rest

/-- Drops blanks, comments and line breaks, however many there are. -/
def skipAll (cs : List Char) : List Char :=
  skipLines (cs.length + 1) cs

/-- A fixed word and the value it stands for. -/
def word? (cs : List Char) : Option (Toml × List Char) :=
  match afterPrefix? "true".toList cs, afterPrefix? "false".toList cs with
  | some rest, _ => some (.boolean true, rest)
  | _, some rest => some (.boolean false, rest)
  | none, none => none

mutual

/-- A value at a depth of nesting of which so much is left. -/
def value? : Nat → Nat → List Char → Option (Toml × List Char)
  | 0, _, _ => none
  | fuel + 1, depth, cs =>
    match cs with
    | [] => none
    | c :: rest =>
      if c == '"' || c == '\'' then (text? cs).map fun (s, rest) => (.text s, rest)
      else if c == '[' then
        if depth == 0 then none
        else (elements? fuel (depth - 1) [] rest).map fun (items, rest) => (.array items, rest)
      else if c == '\x7b' then
        if depth == 0 then none
        else
          match skipBlanks rest with
          | '\x7d' :: rest => some (.closed [], rest)
          | rest =>
            (fields? fuel (depth - 1) (.implied, []) rest).map fun (entries, rest) =>
              (.closed entries, rest)
      else if c == 't' || c == 'f' then word? cs
      else (moment? cs).or (number? cs)

/-- The items of an array up to its end. -/
def elements? : Nat → Nat → List Toml → List Char → Option (List Toml × List Char)
  | 0, _, _, _ => none
  | fuel + 1, depth, reversed, cs =>
    match skipAll cs with
    | ']' :: rest => some (reversed.reverse, rest)
    | cs =>
      match value? fuel depth cs with
      | none => none
      | some (item, rest) =>
        match skipAll rest with
        | ',' :: rest => elements? fuel depth (item :: reversed) rest
        | ']' :: rest => some ((item :: reversed).reverse, rest)
        | _ => none

/-- The assignments of a table that is one value, up to its end. -/
def fields? : Nat → Nat → Draft → List Char → Option (Entries Toml × List Char)
  | 0, _, _, _ => none
  | fuel + 1, depth, draft, cs =>
    match key? (cs.length + 1) cs with
    | some (path, '=' :: rest) =>
      match value? fuel depth (skipBlanks rest) with
      | none => none
      | some (value, rest) =>
        match assign path value draft with
        | none => none
        | some draft =>
          match skipBlanks rest with
          | ',' :: rest => fields? fuel depth draft rest
          | '\x7d' :: rest => some (draft.2, rest)
          | _ => none
    | _ => none

end

/-- The rest of a line, which may hold a comment and nothing else. -/
def lineEnd? (cs : List Char) : Option (List Char) :=
  let rest := afterComment (skipBlanks cs)
  if rest.isEmpty then some [] else afterBreak? rest

/-- A document as far as it is read: its tables, and the path of the one that is open. -/
structure Reading where
  draft : Draft
  path : List String

/-- Reads a header whose opening bracket has been read. -/
def header? (r : Reading) (cs : List Char) : Option (Reading × List Char) :=
  let bare (cs : List Char) : Option (List String × List Char) := key? (cs.length + 1) cs
  match cs with
  | '[' :: cs =>
    match bare cs with
    | some (path, ']' :: ']' :: rest) =>
      (openItem path r.draft).map fun draft => (⟨draft, path⟩, rest)
    | _ => none
  | cs =>
    match bare cs with
    | some (path, ']' :: rest) => (openTable path r.draft).map fun draft => (⟨draft, path⟩, rest)
    | _ => none

/-- Reads an assignment. -/
def assignment? (r : Reading) (cs : List Char) : Option (Reading × List Char) :=
  match key? (cs.length + 1) cs with
  | some (path, '=' :: rest) => do
    let (value, rest) ← value? (2 * rest.length + 2) nestingLimit (skipBlanks rest)
    let draft ← within false (assign path value) r.path r.draft
    return (⟨draft, r.path⟩, rest)
  | _ => none

/-- Reads lines until the text ends. -/
def readLines : Nat → Reading → List Char → Option (Entries Toml)
  | 0, _, _ => none
  | fuel + 1, r, cs =>
    match skipAll cs with
    | [] => some r.draft.2
    | '[' :: cs => do
      let (r, rest) ← header? r cs
      readLines fuel r (← lineEnd? rest)
    | cs => do
      let (r, rest) ← assignment? r cs
      readLines fuel r (← lineEnd? rest)

/-- The entries of the document that a text spells, if it spells one. A mark of the byte order in
front does not count. -/
def read? (cs : List Char) : Option (Entries Toml) :=
  let cs := withoutPrefix ['\uFEFF'] cs
  readLines (cs.length + 1) ⟨(.header, []), []⟩ cs

end Rolewright.Toml
