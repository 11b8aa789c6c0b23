/-
**TOML documents.**

A document is a table. Keys with dots and headers make tables within tables; what may still be added
to a table depends on how it came about, so a table keeps that. No key of a table is ever set twice.
-/

import RSource.Text.Bytes

namespace RSource

/-- How a table came about. -/
inductive Toml.Making where
  /-- It is on the way to a table with a header, and may get a header of its own. -/
  | implied
  /-- It has a header, so it gets no other and no keys from elsewhere. -/
  | headed
  /-- It is named by keys with dots, and only such keys add to it. -/
  | dotted
  /-- It stands between braces, and is complete. -/
  | inline
  deriving Repr, DecidableEq, Inhabited

inductive Toml where
  | integer (value : Int)
  | decimal (value : Float)
  | flag (value : Bool)
  | string (value : Text)
  | list (items : List Toml)
  | table (making : Toml.Making) (entries : List (Text × Toml))
  deriving Inhabited

namespace Toml

/-- What a table holds, in the order of writing. -/
abbrev Entries := List (Text × Toml)

/-- Puts a value in the place of the one of this key. -/
def Entries.replace (key : Text) (value : Toml) : Entries → Entries
  | [] => []
  | (name, old) :: rest =>
    if name = key then (name, value) :: rest else (name, old) :: Entries.replace key value rest

/-- Adds a value under a key that is not set yet. -/
def Entries.insert? (key : Text) (value : Toml) (entries : Entries) : Option Entries :=
  if (entries.lookup key).isSome then none else some (entries ++ [(key, value)])

/-- Adds a value under a key with dots: `path` holds the parts in front of the last. -/
def addDotted? (key : Text) (value : Toml) : (path : List Text) → Entries → Option Entries
  | [], entries => entries.insert? key value
  | part :: path, entries =>
    match entries.lookup part with
    | none => do
      let inner ← addDotted? key value path []
      return entries ++ [(part, .table .dotted inner)]
    | some (.table making inner) =>
      if making = .dotted ∨ making = .implied ∧ path ≠ [] then do
        let inner ← addDotted? key value path inner
        return Entries.replace part (.table making inner) entries
      else none
    | some _ => none

/-- Opens the table of a header. -/
def openTable? : (path : List Text) → Entries → Option Entries
  | [], _ => none
  | [key], entries =>
    match entries.lookup key with
    | none => some (entries ++ [(key, .table .headed [])])
    | some (.table .implied inner) => some (Entries.replace key (.table .headed inner) entries)
    | some _ => none
  | part :: path, entries =>
    match entries.lookup part with
    | none => do
      let inner ← openTable? path []
      return entries ++ [(part, .table .implied inner)]
    | some (.table making inner) =>
      if making = .inline then none
      else do
        let inner ← openTable? path inner
        return Entries.replace part (.table making inner) entries
    | some _ => none

/-- Changes the table at the end of a path. -/
def alter? (change : Entries → Option Entries) : (path : List Text) → Entries → Option Entries
  | [], entries => change entries
  | part :: path, entries =>
    match entries.lookup part with
    | some (.table making inner) => do
      let inner ← alter? change path inner
      return Entries.replace part (.table making inner) entries
    | _ => none

end Toml

end RSource
