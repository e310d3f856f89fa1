/-
# Conversions

Converting the cookbooks of an input into roles: the plan of what would be sent, or the sessions
themselves, each of them delivered and summed up in a few lines.
-/

import Rolewright.Command.Machine
import Rolewright.Command.Rules
import Rolewright.Conversion.Delivery
import Rolewright.Conversion.Pool
import Rolewright.Cookbook.Collection

namespace Rolewright.Command

/-- The configuration with what the command line sets. -/
def override (options : ConversionOptions) (configuration : Configuration) :
    Except Failure Configuration := do
  if options.attempts = some 0 then
    throw (.configuration "--max-attempts must be at least 1")
  if options.workers = some 0 then
    throw (.configuration "--workers must be at least 1")
  let conversion := configuration.conversion
  let generator := configuration.generator
  return { configuration with
    conversion := { conversion with
      attempts := options.attempts.getD conversion.attempts
      workers := options.workers.getD conversion.workers }
    generator := { generator with model := options.model.getD generator.model } }

/-- The lines that show what would be sent for a cookbook. -/
def planLines (registry : Mapping.Registry) (examples : Nat) (cookbook : Cookbook) : List String :=
  let request := Request.build cookbook registry examples
  let unresolved := request.unresolved
  [cookbook.name ++ ": " ++ toString request.recipes.length ++ " recipe(s), " ++
    toString request.hints.length ++ " declaration(s), " ++ toString unresolved.length ++
    " unresolved, " ++ toString request.templates.length ++ " template(s)"] ++
  unresolved.map (fun hint =>
    "  UNRESOLVED " ++ hint.reference ++ " at " ++ hint.span.text) ++
  ["  prompt: " ++ toString Request.systemPrompt.utf8ByteSize ++ " bytes system, " ++
    toString request.userPrompt.utf8ByteSize ++ " bytes user"]

/-- What the sessions of a conversion deal with. -/
def surroundings (machine : Machine) (configuration : Configuration) (key : String)
    (builtinOnly : Bool) : Surroundings where
  generate := Messages.generate configuration.generator key configuration.timeout machine.exchange
  validate := fun _ role => .ofExcept (machine.check configuration builtinOnly role)
  cancelled := fun _ => false
  clock := machine.clock

/-- The lines for what is wrong with the role of a failed session: the first ten findings. -/
def findingLines (diagnostics : List Diagnostic) : List String :=
  (diagnostics.take 10).map (fun d => "         " ++ d.text) ++
    if 10 < diagnostics.length then
      ["         ... " ++ toString (diagnostics.length - 10) ++ " more"]
    else []

/-- The lines for a delivered session. -/
def deliveryLines (session : Concluded) (delivery : Delivery) : List String :=
  let attempts := toString session.attempts.length ++ " attempt(s), "
  if session.outcome.isSuccess then
    ["  OK   " ++ session.cookbook ++ " -> " ++ delivery.directory ++ " (" ++ attempts ++
      delivery.fingerprint.getD "-" ++ ")"]
  else
    let note := if 0 < delivery.files then "best effort written" else "nothing written"
    ("  FAIL " ++ session.cookbook ++ " (" ++ session.outcome.label ++ "; " ++ attempts ++ note ++
      ")") :: findingLines session.outcome.diagnostics

/-- Delivers sessions one after the other. -/
def deliverAll (output : String) : List Concluded → Job Unit
  | [] => pure ()
  | session :: sessions => do
    let delivery ← Job.work (session.deliver output)
    Job.printAll (deliveryLines session delivery)
    deliverAll output sessions

/-- Delivers all sessions and sums them up. -/
def reportSessions (output : String) (sessions : List Concluded) : Job Unit := do
  deliverAll output sessions
  let total := sessions.length
  let failed := (sessions.filter fun s => !s.outcome.isSuccess).length
  Job.print ""
  Job.print ("Converted " ++ toString (total - failed) ++ " of " ++ toString total ++
    " cookbook(s); history under <role>/" ++ Fingerprint.recordDirectory ++ "/")
  if 0 < failed then throw (.sessionsFailed failed total)

/-- The line that opens a conversion. -/
def openingLine (configuration : Configuration) (cookbooks : Nat) : String :=
  "Converting " ++ toString cookbooks ++ " cookbook(s) with " ++ configuration.generator.model ++
    " (" ++ toString configuration.conversion.workers ++ " worker(s), " ++
    toString configuration.conversion.attempts ++ " attempt(s) each)"

/-- The wording for a number of workers that is too high. -/
def tooManyWorkers : String :=
  "a semaphore may not have more than MAX_PERMITS permits (" ++ toString Pool.highestLimit ++ ")"

/-- Converts the cookbooks of an input, or shows what would be sent. -/
def convertInput (machine : Machine) (options : ConversionOptions) : Job Ending := do
  let configuration ← Job.consult fun d => do
    override options (← Configuration.loadOrStandard d options.sources.configuration)
  let registry := Mapping.Registry.ofRules (← loadRules configuration options.sources.mapping)
  let cookbooks ← Job.consult fun d => Cookbook.loadInput d options.input options.only
  if options.dryRun then
    Job.finishing
      (Job.printAll (cookbooks.flatMap (planLines registry configuration.generator.examples)))
  else
    let key ← Job.consult fun _ => configuration.key machine.environment
    Job.print (openingLine configuration cookbooks.length)
    let setting : Pool.Setting := {
      settings := configuration.sessionSettings
      registry
      surroundings := fun _ => surroundings machine configuration key options.builtinOnly
      workers := configuration.conversion.workers }
    match convertAll? setting cookbooks with
    | some sessions => Job.finishing (reportSessions options.output sessions)
    | none => return .died tooManyWorkers

end Rolewright.Command
