/-
**Reports on a text.**

A report shows the tokens of a text, its tree or the problems in it, as lines or as JSON.
-/

import RSource.Json
import RSource.Settings
import RSource.Token.Listing

namespace RSource

/-- A token as JSON. -/
def Token.toJson (token : Token) : JsonValue :=
  .object
    [ ("kind", .string token.kind.name.toList), ("start", .number token.start),
      ("length", .number token.length) ]

mutual

/-- A snapshot as JSON. -/
def Snapshot.toJson : Snapshot → JsonValue
  | .mk form label span attributes children =>
    .object
      [ ("node_type", .string (Content.nameOf form).toList), ("label", .string label),
        ("range", .object [("start", .number span.start), ("end", .number span.stop)]),
        ("attributes", .object (attributes.map fun (name, value) => (name, .string value.toList))),
        ("children", .list (Snapshot.allToJson children)) ]

/-- Snapshots as JSON. -/
def Snapshot.allToJson : List Snapshot → List JsonValue
  | [] => []
  | snapshot :: rest => snapshot.toJson :: Snapshot.allToJson rest

end

namespace Report

/-- How tokens are shown. -/
inductive TokenFormat where
  | listing
  | json
  deriving Repr, DecidableEq, Inhabited

/-- How a tree is shown. -/
inductive TreeFormat where
  | outline
  | json
  deriving Repr, DecidableEq, Inhabited

/-- JSON that ends its last line. -/
def jsonLines (value : JsonValue) : Text := value.write ++ ['\n']

/-- The tokens of a text. -/
def tokens (format : TokenFormat) (settings : Settings) (text : Text) : Text :=
  let found := (lexemes text).map (·.token)
  let shown := found.filter fun token => settings.includeTrivia || !token.kind.isTrivia
  match format with
  | .listing => ((Token.listing? text shown).getD "").toList
  | .json => jsonLines (.list (shown.map Token.toJson))

/-- The tree of a text. -/
def tree (format : TreeFormat) (options : Outline.Options) (text : Text) : Text :=
  let document := (read text).document
  match format with
  | .outline => Outline.draw options document
  | .json => jsonLines document.snapshot.toJson

/-- The problems in a text, with the name of its file, a line for each of the first `limit` and one
for the number of the others; a limit of `0` is none. -/
def problems (limit : Nat) (file text : Text) : List String :=
  let found := (read text).problems
  let lines := LineTable.ofText text
  let shown := if limit = 0 then found else found.take limit
  let others := found.length - shown.length
  (shown.map fun problem => String.ofList file ++ ":" ++ problem.textAt lines)
    ++ if others = 0 then [] else [s!"... and {others} more"]

end Report

end RSource
