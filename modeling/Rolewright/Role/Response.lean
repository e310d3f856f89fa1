/-
# Responses

The files in the answer of a generator. A file is a fenced block whose opening line names its path.
Without any such block, headings such as `# Tasks` followed by a fence are taken for the main files
of their sections. A block that is never closed is no block. Paths that would leave the directory
of the role are refused, and so is an answer without files; both are findings.
-/

import Rolewright.Check.Report
import Rolewright.Path
import Rolewright.Role.Basic
import Rolewright.Text.Letter
import Rolewright.Text.Lines
import Rolewright.Text.Search

namespace Rolewright

open Text

/-- The files of a response, and what is wrong with it. -/
structure Response where
  role : Role
  defects : List Diagnostic
deriving DecidableEq, Repr

namespace Response

/-- Three backticks, which open and close a block. -/
def fence : List Char := ['\x60', '\x60', '\x60']

/-- Blanks that may stand on the line of a fence. -/
def isFenceBlank (c : Char) : Bool :=
  c == ' ' || c == '\t'

/-- Whether a row closes a block. -/
def isClosing (row : List Char) : Bool :=
  match afterPrefix? fence row with
  | some rest => rest.all isFenceBlank
  | none => false

/-- Characters of the language that a fence names. -/
def isLanguageChar (c : Char) : Bool :=
  isAsciiWord c || c == '+' || c == '.' || c == '-'

/-- Characters of the path that a fence names. -/
def isPathChar (c : Char) : Bool :=
  !isBlank c && !"\"'\x60".toList.contains c

/-- What follows the word that introduces a path. -/
def afterPathWord? (cs : List Char) : Option (List Char) :=
  (afterPrefix? "path=".toList cs).or (afterPrefix? "file=".toList cs)

/-- What follows the language of a fence and the blanks after it. -/
def afterLanguage? (cs : List Char) : Option (List Char) :=
  let rest := (cs.dropWhile isFenceBlank).dropWhile isLanguageChar
  let next := rest.dropWhile isFenceBlank
  if next.length < rest.length then afterPathWord? next else none

/-- The path that a row gives to the block it opens. -/
def openedPath? (row : List Char) : Option (List Char) := do
  let cs ← afterPrefix? fence row
  let bare :=
    if cs.head?.any isFenceBlank then afterPathWord? (cs.dropWhile isFenceBlank) else none
  let cs ← bare.or (afterLanguage? cs)
  let cs :=
    match cs with
    | c :: rest => if c == '"' || c == '\'' then rest else cs
    | [] => cs
  let path := cs.takeWhile isPathChar
  if path.isEmpty then none else some path

/-- The rows up to the one that closes a block, and the rows after it. -/
def takeBlock? : List (List Char) → Option (List (List Char) × List (List Char))
  | [] => none
  | row :: rows =>
    if isClosing row then some ([], rows)
    else (takeBlock? rows).map fun (body, rest) => (row :: body, rest)

/-- A block takes at least the row that closes it. -/
theorem length_takeBlock? {rows body rest : List (List Char)}
    (found : takeBlock? rows = some (body, rest)) : rest.length < rows.length := by
  induction rows generalizing body with
  | nil => simp [takeBlock?] at found
  | cons row rows ih =>
    simp only [takeBlock?] at found
    split at found
    · obtain ⟨-, rfl⟩ := Prod.mk.inj (Option.some.inj found)
      exact Nat.lt_succ_self _
    · obtain ⟨⟨body', rest'⟩, inner, same⟩ := Option.map_eq_some_iff.mp found
      obtain ⟨-, rfl⟩ := Prod.mk.inj same
      exact Nat.lt_succ_of_lt (ih inner)

/-- The content of a file: its rows without blanks at the end, closed by one line break. -/
def content (body : List (List Char)) : String :=
  String.ofList (trimEnd (unlines body) ++ ['\n'])

/-- The blocks whose opening line names a path. -/
def pathBlocks (rows : List (List Char)) : List (List Char × String) :=
  match rows with
  | [] => []
  | row :: rest =>
    match openedPath? row with
    | none => pathBlocks rest
    | some path =>
      match _found : takeBlock? rest with
      | none => pathBlocks rest
      | some (body, after) => (path, content body) :: pathBlocks after
termination_by rows.length
decreasing_by
  all_goals simp_wf
  have := length_takeBlock? _found
  omega

/-! ## Sections -/

/-- What follows a fixed word, the case of its letters not mattering. The long s and the sign of
the unit Kelvin count as the letters they stem from. -/
def afterWord? : List Char → List Char → Option (List Char)
  | [], cs => some cs
  | w :: ws, c :: cs =>
    let folded :=
      if c.toNat == 0x17F then 's' else if c.toNat == 0x212A then 'k' else c.toLower
    if folded == w then afterWord? ws cs else none
  | _ :: _, [] => none

/-- The sections of a role that have a main file. -/
def sections : List String :=
  ["tasks", "handlers", "defaults", "vars"]

/-- The section that a row is the heading of, as it is spelled there. -/
def heading? (row : List Char) : Option (List Char) :=
  let marks := row.takeWhile (· == '#')
  let text := (row.drop marks.length).dropWhile isFenceBlank
  if marks.isEmpty || 3 < marks.length then none
  else
    sections.findSome? fun name =>
      match afterWord? name.toList text with
      | some rest => if atBoundary rest then some (text.take name.length) else none
      | none => none

/-- Whether a row opens a block of YAML or of no stated language. -/
def opensSection (row : List Char) : Bool :=
  match afterPrefix? fence (trimStart row) with
  | none => false
  | some rest =>
    let cs := rest.dropWhile isFenceBlank
    let cs := ((afterWord? "yaml".toList cs).or (afterWord? "yml".toList cs)).getD cs
    cs.all isFenceBlank

/-- The block that follows a heading, and the rows after it. -/
def sectionBlock? (rows : List (List Char)) : Option (List (List Char) × List (List Char)) :=
  match rows.dropWhile isBlankText with
  | row :: rest => if opensSection row then takeBlock? rest else none
  | [] => none

/-- The block after a heading leaves fewer rows. -/
theorem length_sectionBlock? {rows body rest : List (List Char)}
    (found : sectionBlock? rows = some (body, rest)) : rest.length < rows.length := by
  unfold sectionBlock? at found
  have shorter := (List.dropWhile_suffix (l := rows) isBlankText).length_le
  split at found
  · rename_i row more tail
    split at found
    · have := length_takeBlock? found
      rw [tail, List.length_cons] at shorter
      omega
    · cases found
  · cases found

/-- The blocks that follow the headings of sections, under the paths of their main files. -/
def sectionBlocks (rows : List (List Char)) : List (List Char × String) :=
  match rows with
  | [] => []
  | row :: rest =>
    match heading? row with
    | none => sectionBlocks rest
    | some name =>
      match _found : sectionBlock? rest with
      | none => sectionBlocks rest
      | some (body, after) =>
        (lower name ++ "/main.yml".toList, content body) :: sectionBlocks after
termination_by rows.length
decreasing_by
  all_goals simp_wf
  have := length_sectionBlock? _found
  omega

/-! ## Paths -/

/-- A path without the references to the current directory in front of it. -/
def withoutHere : List Char → List Char
  | '.' :: '/' :: cs => withoutHere cs
  | cs => cs

/-- Why a path must not be written, if it must not. -/
def refusal? (path : String) : Option String :=
  if path.isEmpty then some "empty path"
  else if Path.isAbsolute path || path.toList.head? == some '\\' then some "absolute path"
  else if (Path.components path).contains .parent then some "path escapes the role directory"
  else if ".cookport".toList.isPrefixOf path.toList then some "reserved directory"
  else none

/-- A response with one more block that names a path. -/
def add (r : Response) (block : List Char × String) : Response :=
  let path := String.ofList (withoutHere block.1)
  match refusal? path with
  | some reason =>
    { r with
      defects := r.defects ++ [.error "output[path]" ("rejected file path: " ++ reason) path] }
  | none => { r with role := r.role.insert path block.2 }

/-- The finding that there are no files. -/
def noFiles : Diagnostic :=
  { severity := .error
    code := "output[delimiter]"
    message := "response contained no file blocks; emit each file as a fenced block whose info " ++
      "string carries path=<relative path>"
    location := none }

/-- The files in a text. -/
def parse (text : List Char) : Response :=
  let rows := rows text
  let named := (pathBlocks rows).foldl add ⟨Role.empty, []⟩
  let found :=
    if named.role.isEmpty then
      { named with
        role := (sectionBlocks rows).foldl
          (fun role block => role.insertMissing (String.ofList block.1) block.2) named.role }
    else named
  if found.role.isEmpty then { found with defects := found.defects ++ [noFiles] } else found

end Response

end Rolewright
