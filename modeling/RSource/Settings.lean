/-
**Settings.**

Settings are decoded from a table of layered settings. A setting may be written in more than one
way: a flag as a number or a word, a number as a text or a flag. `SettingsFault` tells what is
wrong with the sources of settings, and where.
-/

import RSource.Setting
import RSource.Outline

namespace RSource

/-- What can be set. -/
structure Settings where
  /-- Whether token lists show blanks and comments. -/
  includeTrivia : Bool
  outline : Outline.Options
  /-- The number of problems a report shows; `0` shows all. -/
  maxProblems : Nat
  deriving Repr, DecidableEq, Inhabited

namespace Settings

def default : Settings := ⟨true, Outline.Options.default, 0⟩

/-- The layer below all others. -/
def layer (settings : Settings) : Setting :=
  let scalar := fun value => Setting.scalar none value
  let table := fun (entries : List (String × Setting)) =>
    Setting.table none (entries.map fun (name, setting) => (name.toList, setting))
  table
    [ ("inspect", table
        [ ("tokens", table [("include_trivia", scalar (.flag settings.includeTrivia))]),
          ("treeviz", table
            [ ("show_line_numbers", scalar (.flag settings.outline.showLineNumbers)),
              ("label_width", scalar (.integer settings.outline.labelWidth)) ]) ]),
      ("check", table [("max_errors", scalar (.integer settings.maxProblems))]) ]

end Settings

/-- A section of the settings. -/
inductive Section where
  | all
  | inspect
  | tokens
  | outline
  | check
  deriving Repr, DecidableEq, Inhabited

namespace Section

/-- The name of a section in messages. -/
def title : Section → String
  | all => "the settings"
  | inspect => "struct InspectConfig"
  | tokens => "struct TokensConfig"
  | outline => "struct TreevizConfig"
  | check => "struct CheckConfig"

/-- The names of what is set in a section. -/
def fields : Section → List String
  | all => ["inspect", "check"]
  | inspect => ["tokens", "treeviz"]
  | tokens => ["include_trivia"]
  | outline => ["show_line_numbers", "label_width"]
  | check => ["max_errors"]

end Section

/-- What a setting should have been. -/
inductive Wanted where
  | flag
  | number
  | unsigned
  deriving Repr, DecidableEq, Inhabited

namespace Wanted

def text : Wanted → String
  | flag => "a boolean"
  | number => "an integer"
  | unsigned => "an unsigned 64 bit or less integer"

end Wanted

/-- A step from a section to what it holds. -/
inductive Place where
  | named (name : String)
  | numbered (index : Nat)
  deriving Repr, DecidableEq, Inhabited

namespace Place

/-- The key of a way. A name has a dot behind it where another name follows. -/
def key : List Place → String
  | [] => ""
  | numbered index :: way => s!"[{index}]" ++ key way
  | named name :: way =>
    match way with
    | named _ :: _ => name ++ "." ++ key way
    | _ => name ++ key way

end Place

/-- What is wrong with the sources of settings. -/
inductive SettingsFault where
  /-- The key of an override is not a path. -/
  | badKey
  /-- A file is not a TOML document. -/
  | badFile
  | fileMissing (path : Text)
  /-- A setting is of no use where it stands. -/
  | unfit (found : Setting) (wanted : Wanted) (way : List Place)
  /-- A scalar stands in the place of a section. -/
  | notSection (place : Section) (found : Scalar)
  /-- A list in the place of a section has fewer items than the section has fields. -/
  | tooShort (place : Section) (length : Nat)
  | fieldMissing (field : String)
  deriving Inhabited

namespace SettingsFault

/-- Decimals with a fraction and without an exponent. -/
def decimalStyle : Decimal.Style := ⟨true, none⟩

/-- What stands in the place of a section, in words. -/
def describeScalar : Scalar → String
  | .nothing => "unit value"
  | .integer value => s!"integer `{value}`"
  | .decimal value => "floating point `" ++ String.ofList (decimalStyle.write value) ++ "`"
  | .flag value => s!"boolean `{value}`"
  | .string value => "string " ++ Text.quoted value

/-- What stands in the place of a flag or a number, in words. -/
def describe : Setting → String
  | .scalar _ (.integer value) => s!"64-bit integer `{value}`"
  | .scalar _ value => describeScalar value
  | .list _ _ => "sequence"
  | .table _ _ => "map"

/-- Where a setting comes from, in words. -/
def describeOrigin : Setting → String
  | .scalar (some file) _ | .list (some file) _ | .table (some file) _ =>
    " in " ++ String.ofList file
  | _ => ""

def message : SettingsFault → String
  | badKey => "invalid key"
  | badFile => "TOML parse error"
  | fileMissing path => "configuration file \"" ++ String.ofList path ++ "\" not found"
  | unfit found wanted way =>
    s!"invalid type: {describe found}, expected {wanted.text} for key `{Place.key way}`"
      ++ describeOrigin found
  | notSection place found => s!"invalid type: {describeScalar found}, expected {place.title}"
  | tooShort place length =>
    let count := place.fields.length
    s!"invalid length {length}, expected {place.title} with {count} "
      ++ if count = 1 then "element" else "elements"
  | fieldMissing field => s!"missing field `{field}`"

/-- The fault as seen from one step further up. -/
def below (place : Place) : SettingsFault → SettingsFault
  | unfit found wanted way => unfit found wanted (place :: way)
  | fault => fault

end SettingsFault

namespace Setting

def wordsForTrue : List String := ["true", "on", "yes"]

def wordsForFalse : List String := ["false", "off", "no"]

/-- A flag. A text that is no flag is found in lower case. -/
def toFlag : Setting → Except SettingsFault Bool
  | .scalar _ (.flag value) => .ok value
  | .scalar _ (.integer value) => .ok (value != 0)
  | .scalar _ (.decimal value) => .ok (value != 0)
  | .scalar origin (.string value) =>
    let word := Text.lowerCase value
    if String.ofList word ∈ "1" :: wordsForTrue then .ok true
    else if String.ofList word ∈ "0" :: wordsForFalse then .ok false
    else .error (.unfit (.scalar origin (.string word)) .flag [])
  | setting => .error (.unfit setting .flag [])

/-- A number of 64 bits without a sign. A decimal is rounded, halves away from zero, to the nearest
number in range. -/
def toNumber : Setting → Except SettingsFault Nat
  | .scalar _ (.flag value) => .ok value.toNat
  | setting@(.scalar _ (.integer value)) =>
    if 0 ≤ value then .ok value.toNat else .error (.unfit setting .unsigned [])
  | .scalar _ (.decimal value) => .ok value.round.toUInt64.toNat
  | setting@(.scalar _ (.string value)) =>
    let word := String.ofList (Text.lowerCase value)
    if word ∈ wordsForTrue then .ok 1
    else if word ∈ wordsForFalse then .ok 0
    else match Decimal.readWord? value with
      | some number => .ok number
      | none => .error (.unfit setting .number [])
  | setting => .error (.unfit setting .number [])

/-- Decodes a field of a section. A table may lack the field; in a list fields are found by their
place. -/
def field {α : Type} (place : Section) (index : Nat) (decode : Setting → Except SettingsFault α)
    (setting : Setting) : Except SettingsFault (Option α) :=
  match setting with
  | .scalar _ value => .error (.notSection place value)
  | .list _ items =>
    match items[index]? with
    | some item => ((decode item).mapError (.below (.numbered index))).map some
    | none => .error (.tooShort place index)
  | .table _ entries =>
    let name := place.fields.getD index ""
    match entries.lookup name.toList with
    | some entry => ((decode entry).mapError (.below (.named name))).map some
    | none => .ok none

/-- What a field holds, unless it is missing. -/
def require {α : Type} (place : Section) (index : Nat) : Option α → Except SettingsFault α
  | some value => .ok value
  | none => .error (.fieldMissing (place.fields.getD index ""))

/-- Decodes a section of one field. -/
def single {α : Type} (place : Section) (decode : Setting → Except SettingsFault α)
    (setting : Setting) : Except SettingsFault α := do
  require place 0 (← setting.field place 0 decode)

/-- Decodes a section of two fields. -/
def pair {α β : Type} (place : Section) (first : Setting → Except SettingsFault α)
    (second : Setting → Except SettingsFault β) (setting : Setting) :
    Except SettingsFault (α × β) := do
  let left ← setting.field place 0 first
  let right ← setting.field place 1 second
  return (← require place 0 left, ← require place 1 right)

/-- Decodes all settings. -/
def decode (setting : Setting) : Except SettingsFault Settings := do
  let outline := pair .outline toFlag toNumber
  let inspect := pair .inspect (single .tokens toFlag) outline
  let ((includeTrivia, showLineNumbers, labelWidth), maxProblems) ←
    pair .all inspect (single .check toNumber) setting
  return { includeTrivia, outline := { showLineNumbers, labelWidth }, maxProblems }

end Setting

end RSource
