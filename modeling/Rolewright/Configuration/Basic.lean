/-
# The configuration

What can be set from outside: the generator, the checks that other programs make, and the bounds of
a conversion. Everything has a default. A configuration is used only if it is within its bounds.
-/

import Rolewright.Check.Gateway
import Rolewright.Conversion.Run
import Rolewright.Number.Binary

namespace Rolewright

namespace Configuration

/-- The settings of the generator. -/
structure GeneratorSettings where
  model : String
  endpoint : String
  maxTokens : Nat
  temperature : Binary
  /-- The variable of the environment that holds the key. -/
  keyVariable : String
  /-- How many worked examples a request carries. -/
  examples : Nat
deriving DecidableEq, Repr

/-- The settings of the checks that other programs make. -/
structure ValidationSettings where
  /-- The linter; an empty name asks for none. -/
  linter : String
  /-- Whether a missing program is a fault. -/
  required : Bool
  syntaxCheck : Bool
deriving DecidableEq, Repr

/-- The bounds of a conversion. -/
structure ConversionSettings where
  attempts : Nat
  retries : Nat
  backoffInitial : Nat
  backoffLimit : Nat
  /-- How many seconds a call may take. -/
  timeout : Nat
  workers : Nat
  /-- Rules that are added to the standard ones. -/
  mappingFile : Option String
deriving DecidableEq, Repr

/-- The defaults of the generator. -/
def GeneratorSettings.standard : GeneratorSettings :=
  { model := "claude-3-7-sonnet-20250219"
    endpoint := "https://api.anthropic.com/v1/messages"
    maxTokens := 4096
    temperature := .ofDecimal .single false 2 (-1)
    keyVariable := "ANTHROPIC_API_KEY"
    examples := 3 }

/-- The defaults of the checks that other programs make. -/
def ValidationSettings.standard : ValidationSettings :=
  ⟨"ansible-lint", false, false⟩

/-- The defaults of a conversion. -/
def ConversionSettings.standard : ConversionSettings :=
  { attempts := 3
    retries := 4
    backoffInitial := 500
    backoffLimit := 8000
    timeout := 120
    workers := 4
    mappingFile := none }

end Configuration

/-- What can be set from outside. -/
structure Configuration where
  generator : Configuration.GeneratorSettings
  validation : Configuration.ValidationSettings
  conversion : Configuration.ConversionSettings
deriving DecidableEq, Repr

namespace Configuration

/-- The configuration in which nothing is set. -/
def standard : Configuration :=
  ⟨.standard, .standard, .standard⟩

/-- The first bound that a configuration breaks. -/
def brokenBound? (c : Configuration) : Option String :=
  if c.conversion.attempts = 0 then
    some "conversion.max_repair_attempts must be at least 1"
  else if c.conversion.workers = 0 then
    some "conversion.workers must be at least 1"
  else if c.conversion.timeout = 0 then
    some "conversion.call_timeout_secs must be at least 1"
  else if c.conversion.backoffLimit < c.conversion.backoffInitial then
    some "conversion.backoff_max_ms must not be below backoff_initial_ms"
  else if !c.generator.temperature.isWithinUnit then
    some "generator.temperature must be within 0.0..=1.0"
  else none

/-- How sessions are run. -/
def sessionSettings (c : Configuration) : SessionSettings :=
  { attempts := Nat.max c.conversion.attempts 1
    backoff := .between (.ofMilliseconds c.conversion.backoffInitial)
      (.ofMilliseconds c.conversion.backoffLimit) c.conversion.retries.toUInt32
    examples := c.generator.examples }

/-- How long a call may take. -/
def timeout (c : Configuration) : Duration :=
  .ofSeconds c.conversion.timeout

/-- Which external checks are made. -/
def checkSettings (c : Configuration) : Check.Settings :=
  ⟨c.validation.linter, c.validation.required, c.validation.syntaxCheck, c.timeout⟩

/-- The key for the generator: the variable that the configuration names, unless it is blank. -/
def key (c : Configuration) (environment : String → Option String) : Except Failure String :=
  match (environment c.generator.keyVariable).filter fun key => !Text.isBlankText key.toList with
  | some key => .ok key
  | none =>
    .error (.configuration ("no API key: set " ++ c.generator.keyVariable ++
      " or change generator.api_key_env"))

end Configuration

end Rolewright
