/-
# YAML documents

The meaning of the nodes of a document. Plain scalars become what they denote, a tag of the common
ones forces a kind, a local tag is kept around its value, and an alias stands for the node of its
anchor. Aliases may expand a document only so far, and collections nest only so deep.
-/

import Rolewright.Json.Basic
import Rolewright.Yaml.Node
import Rolewright.Yaml.Plain

namespace Rolewright

/-- A value of a YAML document. -/
inductive Yaml where
  | null
  | bool (b : Bool)
  | int (n : Int)
  | float (x : Binary)
  | str (text : String)
  | seq (items : List Yaml)
  | map (entries : List (Yaml × Yaml))
  | tagged (tag : String) (value : Yaml)
deriving Repr, Inhabited

namespace Yaml

/-! ## Looking at values -/

/-- The value inside a tag. -/
def untagged : Yaml → Yaml
  | .tagged _ value => untagged value
  | other => other

/-- The text of a string, tagged or not. -/
def asText? (y : Yaml) : Option String :=
  match y.untagged with
  | .str text => some text
  | _ => none

/-- The entries of a map, tagged or not. -/
def asMap? (y : Yaml) : Option (List (Yaml × Yaml)) :=
  match y.untagged with
  | .map entries => some entries
  | _ => none

/-- The value of a key. A key with a tag is another key. -/
def field? (y : Yaml) (name : String) : Option Yaml :=
  y.asMap?.bind fun entries =>
    entries.findSome? fun (key, value) =>
      match key with
      | .str text => if text = name then some value else none
      | _ => none

/-- Taking a tag off does not enlarge a value. -/
theorem sizeOf_untagged_le (y : Yaml) : sizeOf y.untagged ≤ sizeOf y := by
  fun_induction untagged y with
  | case1 tag value ih => simp; omega
  | case2 => exact Nat.le_refl _

/-- What a key holds is smaller than the map. -/
theorem sizeOf_field? {y value : Yaml} {name : String} (found : y.field? name = some value) :
    sizeOf value < sizeOf y := by
  unfold field? asMap? at found
  have inside := sizeOf_untagged_le y
  split at found
  · rename_i entries same
    obtain ⟨⟨key, v⟩, member, holds⟩ := List.exists_of_findSome?_eq_some found
    have small := List.sizeOf_lt_of_mem member
    have whole : v = value := by
      cases key <;> simp at holds
      exact holds.2
    subst whole
    rw [same] at inside
    simp at inside small
    omega
  · cases found

mutual

/-- Whether two values are the same key. The order of entries does not matter, nor the sign of
zero, and what is no number equals itself. -/
def same : Yaml → Yaml → Bool
  | .null, .null => true
  | .bool a, .bool b => a == b
  | .int a, .int b => a == b
  | .float a, .float b =>
    match a, b with
    | .finite _ 0 _, .finite _ 0 _ => true
    | a, b => a == b
  | .str a, .str b => a == b
  | .seq as, .seq bs => sameItems as bs
  | .map as, .map bs => as.length == bs.length && sameEntries as bs
  | .tagged s a, .tagged t b => s == t && same a b
  | _, _ => false

/-- Whether two lists are the same, item by item. -/
def sameItems : List Yaml → List Yaml → Bool
  | [], [] => true
  | a :: as, b :: bs => same a b && sameItems as bs
  | _, _ => false

/-- Whether every entry of one map is one of another. -/
def sameEntries : List (Yaml × Yaml) → List (Yaml × Yaml) → Bool
  | [], _ => true
  | (key, value) :: rest, others =>
    others.any (fun (k, v) => same key k && same value v) && sameEntries rest others

end

/-! ## The meaning of nodes -/

/-- Why a text is no document: the line of the fault, counted from one, where there is one. -/
structure Fault where
  line : Option Nat
deriving DecidableEq, Repr

/-- A step of giving meaning: counts the aliases that may still be followed. -/
abbrev Meaning (α : Type) := StateT Nat (Except Fault) α

/-- A fault on a line counted from zero. -/
def faultAt {α : Type} (line : Nat) : Meaning α :=
  throw ⟨some (line + 1)⟩

/-- How deep collections may nest. -/
def nestingLimit : Nat := 128

/-- The nodes with anchors, in the order in which they start. -/
def anchored : Node → List (Nat × Node)
  | node@(.scalar p ..) => p.anchor.toList.map fun n => (n, node)
  | node@(.sequence p items) => (p.anchor.toList.map fun n => (n, node)) ++ ofItems items
  | node@(.mapping p entries) => (p.anchor.toList.map fun n => (n, node)) ++ ofEntries entries
  | _ => []
where
  /-- The nodes with anchors in a list. -/
  ofItems : List Node → List (Nat × Node)
    | [] => []
    | item :: items => anchored item ++ ofItems items
  /-- The nodes with anchors in a map. -/
  ofEntries : List (Node × Node) → List (Nat × Node)
    | [] => []
    | (key, value) :: entries => anchored key ++ anchored value ++ ofEntries entries

/-- The nodes that aliases denote; of equal numbers the last counts. -/
abbrev Targets := List (Nat × Node)

/-- The node that stands for another: of an alias its target. -/
def follow (targets : Targets) (node : Node) : Meaning Node :=
  match node with
  | .alias number => do
    match ← get with
    | 0 => throw ⟨none⟩
    | left + 1 =>
      set left
      match targets.lookup number with
      | some target => return target
      | none => throw ⟨none⟩
  | other => return other

/-- The name of a local tag. -/
def localTag? (tag : Option (List Char)) : Option (List Char) :=
  match tag with
  | some ('!' :: name) => some name
  | _ => none

/-- What a plain scalar denotes as a value. Whole numbers have 64 bits. -/
def ofPlain (line : Nat) (text : List Char) : Plain → Meaning Yaml
  | .null => return .null
  | .bool b => return .bool b
  | .int n => if -(Int.pow 2 63) ≤ n && n < Int.pow 2 64 then return .int n else faultAt line
  | .float x => return .float x
  | .text => return .str (String.ofList text)

/-- The meaning of a scalar. A common tag asks for a kind, and it is a fault if the text is not of
it. -/
def ofScalar (p : Properties) (isPlain : Bool) (text : List Char) : Meaning Yaml :=
  let plainly := ofPlain p.line text (Plain.ofText text)
  let verbatim : Meaning Yaml := return .str (String.ofList text)
  match p.tag with
  | none => if isPlain then plainly else verbatim
  | some ('!' :: _) => if isPlain then plainly else verbatim
  | some tag =>
    let common (name : String) : Bool := tag == ("tag:yaml.org,2002:" ++ name).toList
    if common "bool" then
      match Plain.ofText text with
      | .bool b => return .bool b
      | _ => faultAt p.line
    else if common "int" then
      match Plain.whole? text with
      | some n => ofPlain p.line text (.int n)
      | none => faultAt p.line
    else if common "float" then
      match Plain.float? text with
      | some x => return .float x
      | none => faultAt p.line
    else if common "null" then
      if ["~", "null", "Null", "NULL"].contains (String.ofList text) then return .null
      else faultAt p.line
    else verbatim

/-- The entries of a map, in order; a key that is there already is a fault. -/
def ofEntries (meaning : Node → Meaning Yaml) (line : Nat) :
    List (Yaml × Yaml) → List (Node × Node) → Meaning (List (Yaml × Yaml))
  | reversed, [] => return reversed.reverse
  | reversed, (key, value) :: rest => do
    let key ← meaning key
    if reversed.any fun entry => same entry.1 key then faultAt line
    let value ← meaning value
    ofEntries meaning line ((key, value) :: reversed) rest

/-- The value of a node that nests at most so deep. -/
def ofNode (targets : Targets) (depth : Nat) (node : Node) : Meaning Yaml := do
  let wrapped (p : Properties) (meaning : Meaning Yaml) : Meaning Yaml :=
    match localTag? p.tag with
    | some [] => faultAt p.line
    | some name => do return .tagged (String.ofList name) (← meaning)
    | none => meaning
  match ← follow targets node with
  | .scalar p isPlain text => wrapped p (ofScalar p isPlain text)
  | .sequence p items =>
    wrapped p do
      match depth with
      | 0 => faultAt p.line
      | depth + 1 => return .seq (← items.mapM (ofNode targets depth))
  | .mapping p entries =>
    wrapped p do
      match depth with
      | 0 => faultAt p.line
      | depth + 1 => return .map (← ofEntries (ofNode targets depth) p.line [] entries)
  | .alias _ => throw ⟨none⟩
  | .cut line => faultAt line

/-- The document that a text holds, by a meaning of nodes. `none` stands for an empty text. -/
def readWith {α : Type} (meaning : Targets → Node → Meaning α) (nothing : α) (text : List Char) :
    Except Fault α :=
  match Content.ofTokens (Token.ofText text) with
  | .nothing => .ok nothing
  | .faulty line => .error ⟨some (line + 1)⟩
  | .document root events ending => do
    let (value, _) ← (meaning (anchored root).reverse root).run (100 * events)
    match ending with
    | .whole => return value
    | .more => throw ⟨none⟩
    | .faulty line => throw ⟨some (line + 1)⟩

/-- The document that a text holds. -/
def read (text : List Char) : Except Fault Yaml :=
  readWith (fun targets => ofNode targets nestingLimit) .null text

/-! ## Documents as plain data -/

/-- Plain data as a value of JSON: a number that is not finite has no place there. -/
def scalarData : Yaml → Json
  | .bool b => .bool b
  | .int n => .int n
  | .float x => if x.isFinite then .float x else .null
  | .str text => .str text
  | _ => .null

/-- The key that a node is: the text of a scalar as it was written. -/
def keyOf (targets : Targets) (node : Node) : Meaning String := do
  match ← follow targets node with
  | .scalar _ _ text => return String.ofList text
  | .cut line => faultAt line
  | _ => throw ⟨none⟩

/-- The data of a node. Keys are texts, of equal ones the last counts, and local tags are
faults. -/
def dataOfNode (targets : Targets) (depth : Nat) (node : Node) : Meaning Json := do
  match ← follow targets node with
  | .scalar p isPlain text =>
    if (localTag? p.tag).isSome then faultAt p.line
    return scalarData (← ofScalar p isPlain text)
  | .sequence p items =>
    if (localTag? p.tag).isSome then faultAt p.line
    match depth with
    | 0 => faultAt p.line
    | depth + 1 => return .arr (← items.mapM (dataOfNode targets depth))
  | .mapping p entries =>
    if (localTag? p.tag).isSome then faultAt p.line
    match depth with
    | 0 => faultAt p.line
    | depth + 1 =>
      let fields ← entries.mapM fun (key, value) => do
        return (← keyOf targets key, ← dataOfNode targets depth value)
      return .obj (Entries.sorted (Entries.ofPairs fields))
  | .alias _ => throw ⟨none⟩
  | .cut line => faultAt line

/-- The data that a text holds. -/
def readData (text : List Char) : Except Fault Json :=
  readWith (fun targets => dataOfNode targets nestingLimit) .null text

end Yaml

end Rolewright
