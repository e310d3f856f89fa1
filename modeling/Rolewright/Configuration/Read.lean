/-
# Reading the configuration

A configuration file is a TOML document with a table for each part. A part may also be an array
that gives the settings in their order. A setting that no part has makes the file invalid; what a
file does not set keeps its default.
-/

import Rolewright.Configuration.Basic
import Rolewright.Toml.Read

namespace Rolewright.Configuration

/-- How a setting is read: its name, and how a value changes a part. -/
structure Setting (α : Type) where
  name : String
  set : α → Toml → Option α

/-- A text. -/
def text? : Toml → Option String
  | .text text => some text
  | _ => none

/-- A whole number below a bound. -/
def natural? (bound : Nat) : Toml → Option Nat
  | .integer n => if 0 ≤ n && n < bound then some n.toNat else none
  | _ => none

/-- A number, rounded to the precision of a setting. -/
def number? : Toml → Option Binary
  | .float x => some (x.toFormat .single)
  | .integer n => some (.ofRatio .single (decide (n < 0)) n.natAbs 1)
  | _ => none

/-- A truth value. -/
def truth? : Toml → Option Bool
  | .boolean b => some b
  | _ => none

/-- A part with the settings of a table. -/
def ofEntries {α : Type} (settings : List (Setting α)) (part : α) (entries : Entries Toml) :
    Option α :=
  entries.foldlM
    (fun part (name, value) => do
      (← settings.find? (·.name == name)).set part value)
    part

/-- A part with settings in their order; what goes beyond them does not count. -/
def ofItems {α : Type} : List (Setting α) → α → List Toml → Option α
  | setting :: settings, part, value :: values => do
    ofItems settings (← setting.set part value) values
  | _, part, _ => some part

/-- A part with the settings of a table or an array. -/
def part? {α : Type} (settings : List (Setting α)) (part : α) (value : Toml) : Option α :=
  match value.entries?, value.items? with
  | some entries, _ => ofEntries settings part entries
  | none, some items => ofItems settings part items
  | none, none => none

/-- The settings of the generator. -/
def generatorSettings : List (Setting GeneratorSettings) := [
  ⟨"model", fun s v => (text? v).map fun x => { s with model := x }⟩,
  ⟨"endpoint", fun s v => (text? v).map fun x => { s with endpoint := x }⟩,
  ⟨"max_tokens", fun s v => (natural? (Nat.pow 2 32) v).map fun x => { s with maxTokens := x }⟩,
  ⟨"temperature", fun s v => (number? v).map fun x => { s with temperature := x }⟩,
  ⟨"api_key_env", fun s v => (text? v).map fun x => { s with keyVariable := x }⟩,
  ⟨"examples_per_request", fun s v =>
    (natural? (Nat.pow 2 64) v).map fun x => { s with examples := x }⟩]

/-- The settings of the checks that other programs make. -/
def validationSettings : List (Setting ValidationSettings) := [
  ⟨"ansible_lint", fun s v => (text? v).map fun x => { s with linter := x }⟩,
  ⟨"require_external_lint", fun s v => (truth? v).map fun x => { s with required := x }⟩,
  ⟨"syntax_check", fun s v => (truth? v).map fun x => { s with syntaxCheck := x }⟩]

/-- The bounds of a conversion. -/
def conversionSettings : List (Setting ConversionSettings) := [
  ⟨"max_repair_attempts", fun s v =>
    (natural? (Nat.pow 2 32) v).map fun x => { s with attempts := x }⟩,
  ⟨"max_transport_retries", fun s v =>
    (natural? (Nat.pow 2 32) v).map fun x => { s with retries := x }⟩,
  ⟨"backoff_initial_ms", fun s v =>
    (natural? (Nat.pow 2 64) v).map fun x => { s with backoffInitial := x }⟩,
  ⟨"backoff_max_ms", fun s v =>
    (natural? (Nat.pow 2 64) v).map fun x => { s with backoffLimit := x }⟩,
  ⟨"call_timeout_secs", fun s v =>
    (natural? (Nat.pow 2 64) v).map fun x => { s with timeout := x }⟩,
  ⟨"workers", fun s v => (natural? (Nat.pow 2 64) v).map fun x => { s with workers := x }⟩,
  ⟨"mapping_file", fun s v => (text? v).map fun x => { s with mappingFile := some x }⟩]

/-- The parts of a configuration. -/
def parts : List (Setting Configuration) := [
  ⟨"generator", fun c v =>
    (part? generatorSettings .standard v).map fun x => { c with generator := x }⟩,
  ⟨"validation", fun c v =>
    (part? validationSettings .standard v).map fun x => { c with validation := x }⟩,
  ⟨"conversion", fun c v =>
    (part? conversionSettings .standard v).map fun x => { c with conversion := x }⟩]

/-- The configuration that a text spells, or what is wrong with it. -/
def parse (text : List Char) : Except String Configuration :=
  match (Toml.read? text).bind (ofEntries parts standard) with
  | none => .error ("invalid config: " ++ readerMessage)
  | some configuration =>
    match configuration.brokenBound? with
    | some message => .error message
    | none => .ok configuration

/-- The name of the file that is read when no other is named. -/
def fileName : String := "cookport.toml"

/-- The configuration in a file. -/
def load (d : Disk) (path : String) : Except Failure Configuration := do
  let text ← accessing path (d.readText path)
  (parse text).mapError fun message => .configuration (path ++ ": " ++ message)

/-- The configuration in the named file, in the file of the usual name, or the defaults. -/
def loadOrStandard (d : Disk) (path : Option String) : Except Failure Configuration :=
  match path with
  | some path => load d path
  | none => if d.isFile fileName then load d fileName else .ok standard

end Rolewright.Configuration
