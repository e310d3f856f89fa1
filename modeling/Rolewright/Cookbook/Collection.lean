/-
# The cookbooks that an input names

An input is the directory of one cookbook, or a directory that holds cookbooks at any depth. Some
of them may be picked by name.
-/

import Rolewright.Cookbook.Load

namespace Rolewright.Cookbook

/-- Where the cookbooks of an input are. The metadata of the input itself must be text. -/
def locateInput (d : Disk) (input : String) : Except Failure (List Location) :=
  let metadataPath := Path.join input "metadata.rb"
  if d.isFile metadataPath then
    (accessing metadataPath (d.readText metadataPath)).map fun text =>
      [⟨((Metadata.parse text).properName?).getD ((Path.fileName? input).getD ""), input⟩]
  else locate d input

/-- A cookbook that is picked must be there. -/
def checkPicked (input : String) (locations : List Location) (only : List String) :
    Except Failure Unit :=
  match only.find? fun name => !locations.any (·.name == name) with
  | some name =>
    .error (.configuration ("--only " ++ name ++ ": no such cookbook under " ++ input))
  | none => .ok ()

/-- The cookbooks of an input, loaded: all of them, or those that are picked by name. -/
def loadInput (d : Disk) (input : String) (only : List String) :
    Except Failure (List Cookbook) := do
  let locations ← locateInput d input
  if locations.isEmpty then throw (.noCookbooks input)
  checkPicked input locations only
  let picked := locations.filter fun l => only.isEmpty || only.contains l.name
  picked.mapM fun l => load d l.path

end Rolewright.Cookbook
