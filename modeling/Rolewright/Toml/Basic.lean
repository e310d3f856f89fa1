/-
# TOML documents

The values of a TOML document, and how its tables come together. A table may be given piece by
piece, by headers and by dotted keys, but each piece once only: a table remembers how it came about,
because that decides what may still be added to it.
-/

import Rolewright.Entries
import Rolewright.Number.Binary

namespace Rolewright

/-- How a table came about. -/
inductive TableOrigin where
  /-- By a header of its own. -/
  | header
  /-- On the way to a table below it. -/
  | implied
  /-- As part of a dotted key. -/
  | dotted
deriving DecidableEq, Repr

/-- A value of a TOML document. -/
inductive Toml where
  | text (text : String)
  | integer (n : Int)
  | float (x : Binary)
  | boolean (b : Bool)
  /-- A date, a time, or both. -/
  | time (text : String)
  | array (items : List Toml)
  /-- A table that was written as one value, to which nothing can be added. -/
  | closed (entries : List (String × Toml))
  | table (origin : TableOrigin) (entries : List (String × Toml))
  /-- The tables under a header that may be repeated. -/
  | repeated (tables : List Toml)
deriving Repr, Inhabited

namespace Toml

/-- The entries of a table. -/
def entries? : Toml → Option (Entries Toml)
  | .closed entries | .table _ entries => some entries
  | _ => none

/-- The items of an array. -/
def items? : Toml → Option (List Toml)
  | .array items | .repeated items => some items
  | _ => none

/-! ## Putting tables together -/

/-- A table under construction: how it came about, and what it holds so far. -/
abbrev Draft := TableOrigin × Entries Toml

/-- Changes the table at a path below a table, making the tables on the way. Only headers lead
into tables that have a header. -/
def within (dotted : Bool) (change : Draft → Option Draft) :
    List String → Draft → Option Draft
  | [], draft => change draft
  | key :: path, (origin, entries) => do
    let next ←
      match Entries.get? entries key with
      | none =>
        let (origin, inner) ←
          within dotted change path (if dotted then .dotted else .implied, [])
        some (.table origin inner)
      | some (.table origin inner) =>
        if dotted && origin = .header then none
        else
          let (origin, inner) ← within dotted change path (origin, inner)
          some (.table origin inner)
      | some (.repeated tables) =>
        match tables.getLast? with
        | some (.table origin inner) =>
          let (origin, inner) ← within dotted change path (origin, inner)
          some (.repeated (tables.dropLast ++ [.table origin inner]))
        | _ => none
      | some _ => none
    return (origin, Entries.put entries key next)

/-- Adds a value under a key that is not in use. -/
def add (key : String) (value : Toml) (draft : Draft) : Option Draft :=
  if (Entries.get? draft.2 key).isSome then none
  else some (draft.1, Entries.put draft.2 key value)

/-- Adds a value under a dotted key. Tables that dotted keys did not make stay as they are. -/
def assign (path : List String) (value : Toml) (draft : Draft) : Option Draft :=
  match path.getLast? with
  | none => none
  | some key =>
    let place (inner : Draft) : Option Draft :=
      if inner.1 = .dotted || path.length = 1 then add key value inner else none
    within true place path.dropLast draft

/-- Opens the table of a header. Its name must be free, or that of a table that was only implied. -/
def openTable (path : List String) (draft : Draft) : Option Draft :=
  match path.getLast? with
  | none => none
  | some key =>
    let place (outer : Draft) : Option Draft :=
      match Entries.get? outer.2 key with
      | none => some (outer.1, Entries.put outer.2 key (.table .header []))
      | some (.table .implied inner) =>
        some (outer.1, Entries.put outer.2 key (.table .header inner))
      | some _ => none
    within false place path.dropLast draft

/-- Opens one more table of a header that may be repeated. -/
def openItem (path : List String) (draft : Draft) : Option Draft :=
  match path.getLast? with
  | none => none
  | some key =>
    let fresh := Toml.table .header []
    let place (outer : Draft) : Option Draft :=
      match Entries.get? outer.2 key with
      | none => some (outer.1, Entries.put outer.2 key (.repeated [fresh]))
      | some (.repeated tables) =>
        some (outer.1, Entries.put outer.2 key (.repeated (tables ++ [fresh])))
      | some _ => none
    within false place path.dropLast draft

end Toml

end Rolewright
