/-
# Command lines

What a command line asks for. Switches stand anywhere behind the name of a command: as `--name
value` or `--name=value`, or by their letters as `-n value`, `-n=value` or `-nvalue`, and letters
without a value may stand together. Behind `--` all words are operands. A switch is given at most
once unless it may be repeated. How much is logged can be asked for anywhere and changes no answer.
-/

import Rolewright.Path

namespace Rolewright

/-- Where settings and rules come from beside the defaults. -/
structure Sources where
  configuration : Option String
  mapping : Option String
deriving DecidableEq, Repr

/-- What a conversion is asked for. -/
structure ConversionOptions where
  input : String
  output : String
  sources : Sources
  /-- The cookbooks to convert; all of them if none is named. -/
  only : List String
  attempts : Option Nat
  workers : Option Nat
  model : Option String
  /-- Whether other programs are kept out of the checks. -/
  builtinOnly : Bool
  /-- Whether only the plan is shown. -/
  dryRun : Bool
deriving DecidableEq, Repr

/-- What a command line asks for. -/
inductive Command where
  | convert (options : ConversionOptions)
  /-- Shows all that was found in cookbooks. -/
  | extract (input : String) (json : Bool)
  /-- Shows what becomes of each resource. -/
  | resolve (input : String) (sources : Sources) (unmappedOnly : Bool)
  | rules (sources : Sources) (schema : Bool)
  /-- Checks the role in a directory. -/
  | validate (directory : String) (configuration : Option String) (builtinOnly : Bool)
  /-- Writes a configuration file to start from. -/
  | init (directory : String)
deriving DecidableEq, Repr

namespace Command

/-- A switch of a command. -/
structure Switch where
  name : String
  letter : Option Char
  takesValue : Bool
  repeatable : Bool
deriving DecidableEq, Repr

/-- A switch that is given or not. -/
def Switch.plain (name : String) : Switch := ⟨name, none, false, false⟩

/-- A switch with a value. -/
def Switch.valued (name : String) (letter : Option Char) : Switch := ⟨name, letter, true, false⟩

/-- Asks for more log output. -/
def verbosity : Switch := ⟨"verbose", some 'v', false, true⟩

/-- Names the configuration file. -/
def configurationSwitch : Switch := .valued "config" (some 'c')

/-- Names a file of further rules. -/
def mappingSwitch : Switch := .valued "mapping" (some 'm')

/-- The meaning of a word of a command line, or of a part of it. -/
inductive Piece where
  | operand (text : String)
  | switch (name value : String)
deriving DecidableEq, Repr

/-- What a word gives, and the switch whose value is the next word. -/
structure Reading where
  pieces : List Piece
  pending : Option Switch

/-- Reads a word that names a switch by its letters. -/
def readLetters (switches : List Switch) : List Char → Option Reading
  | [] => some ⟨[], none⟩
  | letter :: rest => do
    let switch ← switches.find? (·.letter == some letter)
    if switch.takesValue then
      match rest with
      | [] => some ⟨[], some switch⟩
      | '=' :: value => some ⟨[.switch switch.name (String.ofList value)], none⟩
      | value => some ⟨[.switch switch.name (String.ofList value)], none⟩
    else
      let reading ← readLetters switches rest
      some { reading with pieces := .switch switch.name "" :: reading.pieces }

/-- Reads a word that names a switch in full. -/
def readName (switches : List Switch) (word : List Char) : Option Reading := do
  let name := String.ofList (word.takeWhile (· != '='))
  let switch ← switches.find? (·.name == name)
  match word.dropWhile (· != '='), switch.takesValue with
  | [], true => some ⟨[], some switch⟩
  | [], false => some ⟨[.switch name ""], none⟩
  | _ :: value, true => some ⟨[.switch name (String.ofList value)], none⟩
  | _ :: _, false => none

/-- Whether a word may be a value or an operand by its looks. -/
def isPlain (word : String) : Bool :=
  word.toList.head? != some '-' || word == "-"

/-- Reads a word before any `--`. -/
def readWord (switches : List Switch) (word : String) : Option Reading :=
  if isPlain word then some ⟨[.operand word], none⟩
  else
    match word.toList.drop 1 with
    | '-' :: long => readName switches long
    | letters => readLetters switches letters

/-- The pieces of the words behind the name of a command. -/
def pieces? (switches : List Switch) : List String → Option (List Piece)
  | [] => some []
  | word :: words =>
    if word = "--" then some (words.map .operand)
    else
      match readWord switches word with
      | none => none
      | some ⟨given, none⟩ => (pieces? switches words).map (given ++ ·)
      | some ⟨given, some switch⟩ =>
        match words with
        | [] => none
        | value :: rest =>
          if isPlain value then
            (pieces? switches rest).map (given ++ .switch switch.name value :: ·)
          else none

/-- The operands among pieces. -/
def operands (pieces : List Piece) : List String :=
  pieces.filterMap fun
    | .operand text => some text
    | .switch .. => none

/-- The values that a switch is given. -/
def values (pieces : List Piece) (name : String) : List String :=
  pieces.filterMap fun
    | .switch other value => if other = name then some value else none
    | .operand _ => none

/-- The value that a switch is given. -/
def value? (pieces : List Piece) (name : String) : Option String :=
  (values pieces name).head?

/-- Whether a switch is given. -/
def has (pieces : List Piece) (name : String) : Bool :=
  !(values pieces name).isEmpty

/-- The pieces of the words behind a command with such switches, none of them given too often. -/
def given? (switches : List Switch) (words : List String) : Option (List Piece) := do
  let switches := verbosity :: switches
  let pieces ← pieces? switches words
  if switches.all fun s => s.repeatable || (values pieces s.name).length ≤ 1 then some pieces
  else none

/-- The number below a bound that a word spells. -/
def number? (bound : Nat) (word : String) : Option Nat :=
  let digits :=
    match word.toList with
    | '+' :: digits => digits
    | digits => digits
  let n := Nat.ofDigitChars 10 digits 0
  if !digits.isEmpty && digits.all Char.isDigit && n < bound then some n else none

/-- The number that a switch is given; none if it is given something else. -/
def numberOf? (pieces : List Piece) (name : String) (bound : Nat) : Option (Option Nat) :=
  match value? pieces name with
  | none => some none
  | some word => (number? bound word).map some

/-- The one operand of a command. -/
def operand? (pieces : List Piece) : Option String :=
  match operands pieces with
  | [operand] => some operand
  | _ => none

/-- Where settings and rules come from. -/
def sources (pieces : List Piece) : Sources :=
  ⟨value? pieces "config", value? pieces "mapping"⟩

/-- Reads the words behind `convert`. -/
def readConvert (words : List String) : Option Command := do
  let pieces ← given? [
    .valued "output" (some 'o'),
    configurationSwitch,
    mappingSwitch,
    ⟨"only", none, true, true⟩,
    .valued "max-attempts" none,
    .valued "workers" (some 'w'),
    .valued "model" none,
    .plain "builtin-lint",
    .plain "dry-run"] words
  return .convert {
    input := ← operand? pieces
    output := (value? pieces "output").getD "roles"
    sources := sources pieces
    only := values pieces "only"
    attempts := ← numberOf? pieces "max-attempts" (Nat.pow 2 32)
    workers := ← numberOf? pieces "workers" (Nat.pow 2 64)
    model := value? pieces "model"
    builtinOnly := has pieces "builtin-lint"
    dryRun := has pieces "dry-run" }

/-- Reads the words behind `extract`. -/
def readExtract (words : List String) : Option Command := do
  let pieces ← given? [.plain "json"] words
  return .extract (← operand? pieces) (has pieces "json")

/-- Reads the words behind `resolve`. -/
def readResolve (words : List String) : Option Command := do
  let pieces ← given? [configurationSwitch, mappingSwitch, .plain "unmapped"] words
  return .resolve (← operand? pieces) (sources pieces) (has pieces "unmapped")

/-- Reads the words behind `rules`. -/
def readRules (words : List String) : Option Command := do
  let pieces ← given? [configurationSwitch, mappingSwitch, .plain "schema"] words
  if (operands pieces).isEmpty then some (.rules (sources pieces) (has pieces "schema")) else none

/-- Reads the words behind `validate`. -/
def readValidate (words : List String) : Option Command := do
  let pieces ← given? [configurationSwitch, .plain "builtin-lint"] words
  return .validate (← operand? pieces) (value? pieces "config") (has pieces "builtin-lint")

/-- Reads the words behind `init`. -/
def readInit (words : List String) : Option Command := do
  match operands (← given? [] words) with
  | [] => some (.init ".")
  | [directory] => some (.init directory)
  | _ => none

/-- Whether a word asks for more log output and nothing else. -/
def isVerbosity (word : String) : Bool :=
  word == "--verbose" ||
    match word.toList with
    | '-' :: letters@(_ :: _) => letters.all (· == 'v')
    | _ => false

/-- What a command line asks for, if it asks for anything. -/
def read (words : List String) : Option Command :=
  match words.dropWhile isVerbosity with
  | "convert" :: words => readConvert words
  | "extract" :: words => readExtract words
  | "resolve" :: words => readResolve words
  | "rules" :: words => readRules words
  | "validate" :: words => readValidate words
  | "init" :: words => readInit words
  | _ => none

end Command

end Rolewright
