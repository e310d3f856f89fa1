/-
# Sessions side by side

A pool of sessions. Each has surroundings of its own, and a bounded number of them runs at a time;
a session waits until there is room. Which session goes on when is a schedule, and the schedule is
arbitrary: the results come in the order of the cookbooks whatever it is. A worker that dies in a
call takes down its own session and no other.
-/

import Rolewright.Conversion.Run

namespace Rolewright

/-- How far the session of a cookbook is. -/
inductive Stage where
  | waiting
  | running (state : State)
  | done (session : Concluded)
deriving Repr

/-- Whether a session runs. -/
def Stage.isRunning : Stage → Bool
  | .running _ => true
  | .waiting | .done _ => false

/-- What may happen next: a session is started, or one that runs takes a step. -/
inductive Move where
  | start (position : Nat)
  | advance (position : Nat)
deriving DecidableEq, Repr

/-- The cookbooks of a pool, and how far the session of each is. -/
abbrev Pool := List (Cookbook × Stage)

namespace Pool

/-- What the sessions of a pool have in common. -/
structure Setting where
  settings : SessionSettings
  registry : Mapping.Registry
  /-- What the session of each cookbook deals with. -/
  surroundings : Cookbook → Surroundings
  /-- How many sessions may run at a time; at least one may. -/
  workers : Nat

/-- The most sessions that run at a time. -/
def Setting.limit (s : Setting) : Nat := Nat.max s.workers 1

/-- The highest limit that can be kept count of. -/
def highestLimit : Nat := Nat.pow 2 61 - 1

/-- No session has been started. -/
def initial (cookbooks : List Cookbook) : Pool :=
  cookbooks.map fun cookbook => (cookbook, .waiting)

/-- How many sessions run. -/
def running (pool : Pool) : Nat :=
  (pool.filter fun (_, stage) => stage.isRunning).length

/-- A running session after its next step, ended or not. -/
def advanced (s : Setting) (cookbook : Cookbook) (state : State) : Stage :=
  let next := Run.step (s.surroundings cookbook) s.settings s.registry cookbook state
  match next.ended? with
  | some session => .done session
  | none => .running next

/-- The pool after a move. A move that is not possible changes nothing. -/
def move (s : Setting) (pool : Pool) : Move → Pool
  | .start position =>
    match pool[position]? with
    | some (cookbook, .waiting) =>
      if running pool < s.limit then
        pool.set position (cookbook, .running (Run.initial s.settings cookbook))
      else pool
    | _ => pool
  | .advance position =>
    match pool[position]? with
    | some (cookbook, .running state) => pool.set position (cookbook, advanced s cookbook state)
    | _ => pool

/-- The pool after the moves of a schedule. -/
def play (s : Setting) (schedule : List Move) (pool : Pool) : Pool :=
  schedule.foldl (move s) pool

/-- The sessions that have ended, in the order of the cookbooks. -/
def results (pool : Pool) : List Concluded :=
  pool.filterMap fun (_, stage) =>
    match stage with
    | .done session => some session
    | .waiting | .running _ => none

/-- The schedule that lets one session after the other start and run to its end. -/
def oneByOne (s : Setting) (cookbooks : List Cookbook) : List Move :=
  cookbooks.zipIdx.flatMap fun (cookbook, position) =>
    .start position ::
      List.replicate (Run.initial s.settings cookbook).remaining (.advance position)

end Pool

/-- Runs a session on each cookbook. -/
def convertAll (s : Pool.Setting) (cookbooks : List Cookbook) : List Concluded :=
  Pool.results (Pool.play s (Pool.oneByOne s cookbooks) (Pool.initial cookbooks))

/-- Runs a session on each cookbook. Whoever asks for a limit that is too high dies of it before any
session starts. -/
def convertAll? (s : Pool.Setting) (cookbooks : List Cookbook) : Option (List Concluded) :=
  if s.limit ≤ Pool.highestLimit then some (convertAll s cookbooks) else none

end Rolewright
