/-
# Findings of a linter

What an external linter prints, one finding to a line: a path, a line number, a code and a message.
Lines of any other shape are passed over. A linter that failed without printing a finding is a
finding itself.
-/

import Rolewright.Check.Report
import Rolewright.Text.Letter
import Rolewright.Text.Lines
import Rolewright.Text.Search

namespace Rolewright.Check

open Text

/-- What a program that ended has left behind. -/
structure ToolOutput where
  exitCode : Int
  stdout : List Char
  stderr : List Char
deriving DecidableEq, Repr

/-- Whether the program ended well. -/
def ToolOutput.success (o : ToolOutput) : Bool :=
  o.exitCode == 0

/-- A number and what follows it. -/
def takeNumber? (cs : List Char) : Option (List Char × List Char) :=
  let digits := cs.takeWhile isDecimalDigit
  if digits.isEmpty then none else some (digits, cs.drop digits.length)

/-- What follows a column number, if one stands here. -/
def afterColumn? (cs : List Char) : Option (List Char) := do
  let (_, rest) ← takeNumber? (← afterPrefix? [':'] cs)
  afterPrefix? [':'] rest

/-- A code with its detail in brackets, and what follows it. -/
def takeCode? (cs : List Char) : Option (List Char × List Char) :=
  match cs with
  | [] => none
  | c :: rest =>
    if !c.isAlpha then none
    else
      let word := c :: rest.takeWhile fun d => isWord d || d == '-'
      let after := cs.drop word.length
      match after with
      | '[' :: inner =>
        let detail := inner.takeWhile (· != ']')
        match inner.drop detail.length with
        | _ :: tail => some (word ++ '[' :: detail ++ [']'], tail)
        | [] => some (word, after)
      | _ => some (word, after)

/-- How bad a finding of a linter is, by its code. -/
def lintSeverity (code : List Char) : Severity :=
  if ["syntax-check", "load-failure", "internal-error"].any fun lead =>
      lead.toList.isPrefixOf code then .error
  else .warning

/-- The finding on a line. -/
def lintLine? (line : List Char) : Option Diagnostic := do
  let cs := trim line
  let path := cs.takeWhile fun c => c != ':' && !isBlank c
  if path.isEmpty then none
  let (number, rest) ← takeNumber? (← afterPrefix? [':'] (cs.drop path.length))
  let rest := trimStart (← (afterColumn? rest).or (afterPrefix? [':'] rest))
  let (code, rest) ← takeCode? (withoutPrefix ['['] rest)
  let rest := withoutPrefix [':'] (withoutPrefix [']'] rest)
  return {
    severity := lintSeverity code
    code := String.ofList code
    message := String.ofList (trim rest)
    location := some (String.ofList (path ++ ':' :: number)) }

/-- The last lines of a text that are not blank. -/
def lastLines (count : Nat) (text : List Char) : String :=
  let full := (lines text).filter fun line => !isBlankText line
  let tail := full.drop (full.length - count)
  if (unlines tail).isEmpty then "tool exited with an error and no output"
  else String.ofList (unlines tail)

/-- The findings in the output of a linter. -/
def lintDiagnostics (o : ToolOutput) : List Diagnostic :=
  let found := (lines o.stdout ++ lines o.stderr).filterMap lintLine?
  if found.isEmpty && !o.success then [⟨.error, "lint[failed]", lastLines 5 o.stderr, none⟩]
  else found

end Rolewright.Check
