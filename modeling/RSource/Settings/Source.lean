/-
**Sources of settings.**

Files are layered over the defaults in their order, and overrides over all files. The first fault
ends the loading: keys of overrides come first, then files, then what the settings are.
-/

import RSource.Settings
import RSource.Toml.Reader
import RSource.Text.Utf8

namespace RSource

/-- Answers what a file holds, or `none` if there is no such file. -/
abbrev FileReader (m : Type → Type) := Text → m (Option (List UInt8))

namespace Settings

/-- Where settings come from. -/
inductive Source where
  | file (path : Text)
  /-- The file counts only if there is one. -/
  | optionalFile (path : Text)
  | override (key : Text) (value : Scalar)

/-- The name of a file as it is told: without steps that stay in the same directory. -/
def plainPath (path : Text) : Text :=
  let parts := path.splitOn '/'
  let kept := parts.filter (· != ['.'])
  if parts.head? == some [] then path else List.intercalate ['/'] kept

/-- The ending that may be left out in the name of a file. -/
def fileEnding : Text := ['.', 't', 'o', 'm', 'l']

/-- The overrides among the sources: paths and settings. -/
def overrides : List Source → Except SettingsFault (List (List Text × Setting))
  | [] => .ok []
  | .override key value :: rest =>
    match Setting.readPath? key with
    | some path => (overrides rest).map ((path, .scalar none value) :: ·)
    | none => .error .badKey
  | _ :: rest => overrides rest

variable {m : Type → Type} [Monad m]

/-- A file: its name and what it holds. -/
abbrev NamedFile := Text × List UInt8

/-- Finds a file under its name or under the name with the ending. -/
def findFile (files : FileReader m) (path : Text) : m (Option NamedFile) := do
  match ← files path with
  | some content => return some (path, content)
  | none =>
    let longer := path ++ fileEnding
    return (← files longer).map (longer, ·)

/-- Lays a file over the settings below it. -/
def addFile (files : FileReader m) (required : Bool) (path : Text) (below : Setting) :
    ExceptT SettingsFault m Setting := do
  match ← (findFile files path : m (Option NamedFile)) with
  | some (name, content) =>
    match Toml.read? (Text.mended content) with
    | some document => return below.overFile (plainPath name) document
    | none => throw .badFile
  | none => if required then throw (.fileMissing path) else return below

/-- Lays the files among the sources over the settings below them. -/
def addFiles (files : FileReader m) : List Source → Setting → ExceptT SettingsFault m Setting
  | [], below => return below
  | .file path :: rest, below => do addFiles files rest (← addFile files true path below)
  | .optionalFile path :: rest, below => do addFiles files rest (← addFile files false path below)
  | .override _ _ :: rest, below => addFiles files rest below

/-- Loads settings from the sources. -/
def load (files : FileReader m) (sources : List Source) : ExceptT SettingsFault m Settings := do
  let overriding ← MonadExcept.ofExcept (overrides sources)
  let layered ← addFiles files sources default.layer
  let whole := overriding.foldl (fun below (path, setting) => below.assign setting path) layered
  MonadExcept.ofExcept whole.decode

end Settings

end RSource
