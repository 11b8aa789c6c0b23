/-
**Layers of settings.**

A setting is a scalar, a list or a table of named settings. Layers are laid over one another:
tables are merged name by name, and anything else replaces what was there. Names are in lower
case. Lists and scalars remember the file they come from, and so do tables that were not merged.
-/

import RSource.Toml
import RSource.Text.LowerCase
import RSource.Decimal.Text

namespace RSource

/-- A setting without parts. -/
inductive Scalar where
  | nothing
  | integer (value : Int)
  | decimal (value : Float)
  | flag (value : Bool)
  | string (value : Text)
  deriving Inhabited

/-- The origin of a setting is the file that holds it. -/
inductive Setting where
  | scalar (origin : Option Text) (value : Scalar)
  | list (origin : Option Text) (items : List Setting)
  | table (origin : Option Text) (entries : List (Text × Setting))
  deriving Inhabited

namespace Setting

/-- Named settings. -/
abbrev Entries := List (Text × Setting)

/-- Puts a setting under a name, in the place of the one that is there. -/
def Entries.put (name : Text) (setting : Setting) : Entries → Entries
  | [] => [(name, setting)]
  | (other, old) :: rest =>
    if other = name then (name, setting) :: rest else (other, old) :: Entries.put name setting rest

/-- What a setting holds under names; only tables hold anything. -/
def entries : Setting → Entries
  | table _ entries => entries
  | _ => []

/-- Puts a setting under a name; what is not a table becomes one. -/
def put (name : Text) (setting whole : Setting) : Setting :=
  .table none (Entries.put name setting whole.entries)

/-- The setting under a name, or what `missing` says. -/
def get (name : Text) (missing whole : Setting) : Setting :=
  (whole.entries.lookup name).getD missing

mutual

/-- Lays a setting over another. -/
def layOver (below : Setting) : Setting → Setting
  | table _ entries => overEntries below entries
  | setting => setting

/-- Lays named settings over a setting. -/
def overEntries (below : Setting) : List (Text × Setting) → Setting
  | [] => below
  | (name, setting) :: rest =>
    overEntries (put name (layOver (get name (.table none []) below) setting) below) rest

end

/-- Lays a setting over what is under a path. Settings on the way that are not tables become
tables. -/
def assign (whole setting : Setting) : (path : List Text) → Setting
  | [] => setting
  | [name] => put name (layOver (get name (.table none []) whole) setting) whole
  | name :: path => put name (assign (get name (.scalar none .nothing) whole) setting path) whole

/-! ### Paths -/

/-- The characters of names in paths. -/
def isNameChar (c : Char) : Bool :=
  Decimal.isDigit c || 'a' ≤ c && c ≤ 'z' || 'A' ≤ c && c ≤ 'Z' || c == ' ' || c == '_' || c == '-'

/-- The names of a path, in lower case. In writing, dots separate them. -/
def readPath? (text : Text) : Option (List Text) :=
  let names := text.splitOn '.'
  if names.all fun name => !name.isEmpty && name.all isNameChar then
    some (names.map Text.lowerCase)
  else none

/-! ### Files -/

mutual

/-- A value of a file as a setting. -/
def ofToml (origin : Text) : Toml → Setting
  | .integer value => .scalar origin (.integer value)
  | .decimal value => .scalar origin (.decimal value)
  | .flag value => .scalar origin (.flag value)
  | .string value => .scalar origin (.string value)
  | .list items => .list origin (ofItems origin items)
  | .table _ entries => .table origin (ofEntries origin entries)

/-- The items of a list as settings. -/
def ofItems (origin : Text) : List Toml → List Setting
  | [] => []
  | item :: items => ofToml origin item :: ofItems origin items

/-- The entries of a table as named settings. -/
def ofEntries (origin : Text) : List (Text × Toml) → List (Text × Setting)
  | [] => []
  | (name, value) :: entries =>
    (Text.lowerCase name, ofToml origin value) :: ofEntries origin entries

end

/-- Lays a file over the settings below it. A name at the top may be a path. -/
def overFile (below : Setting) (origin : Text) (file : Toml.Entries) : Setting :=
  (ofEntries origin file).foldl
    (fun whole (name, setting) => whole.assign setting ((readPath? name).getD [name])) below

end Setting

end RSource
