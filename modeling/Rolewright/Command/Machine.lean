/-
# Machines

What a command meets beside its disk: the variables of the environment, the other programs, a place
to work with them, the network, and the clock.
-/

import Rolewright.Check.Gateway
import Rolewright.Conversion.Persistence
import Rolewright.Generator.Messages

namespace Rolewright

/-- What a command meets beside its disk. -/
structure Machine where
  environment : String → Option String
  programs : Check.Programs
  /-- A directory that is new, for what other programs work on. -/
  scratch : String
  exchange : Exchange
  /-- How long the clock has run by a moment of a session. -/
  clock : Moment → Duration

/-- The answer of the checks on a role, made with other programs or without. -/
def Machine.check (machine : Machine) (configuration : Configuration) (builtinOnly : Bool)
    (role : Role) : Except Check.GatewayError Report :=
  Check.validate (if builtinOnly then .builtin else configuration.checkSettings) machine.programs
    machine.scratch role

end Rolewright
