/-
**The command line.**

`Command.ofArguments` reads the arguments of the program, and `Command.run` does what they ask
for. A command first loads the settings and then reads the text; it shows the tokens of the text,
its tree or the problems in it.
-/

import RSource.Report
import RSource.Settings.Source

namespace RSource

/-- What a command does with a text. -/
inductive Verb where
  | tokens
  | tree
  | check
  deriving Repr, DecidableEq, Inhabited

namespace Verb

def name : Verb → String
  | tokens => "tokens"
  | tree => "tree"
  | check => "check"

/-- The verb of this name. -/
def ofName? (name : String) : Option Verb := [tokens, tree, check].find? (·.name == name)

/-- The words for formats; the first counts where none is given. -/
def formats : Verb → List String
  | tokens => ["text", "json"]
  | tree => ["treeviz", "json"]
  | check => []

end Verb

/-- What an argument that begins with a hyphen asks for. -/
inductive Flag where
  | settings
  | format
  | lineNumbers
  | help
  | version
  deriving Repr, DecidableEq, Inhabited

namespace Flag

def all : List Flag := [settings, format, lineNumbers, help, version]

/-- The word behind two hyphens. -/
def word : Flag → String
  | settings => "config"
  | format => "format"
  | lineNumbers => "line-numbers"
  | help => "help"
  | version => "version"

/-- The letter behind one hyphen. -/
def letter? : Flag → Option Char
  | settings => some 'c'
  | format => some 'f'
  | lineNumbers => none
  | help => some 'h'
  | version => some 'V'

def takesValue : Flag → Bool
  | settings => true
  | format => true
  | _ => false

/-- Whether a flag may stand behind a verb, or in front of all verbs. -/
def belongsTo : Flag → Option Verb → Bool
  | settings, _ => true
  | format, verb => verb == some .tokens || verb == some .tree
  | lineNumbers, verb => verb == some .tree
  | help, _ => true
  | version, verb => verb.isNone

end Flag

/-- A text to be read and what to do with it. -/
structure Command where
  settingsFile : Option Text
  verb : Verb
  format : String
  lineNumbers : Bool
  file : Text
  deriving Repr, DecidableEq, Inhabited

namespace Command

/-- Why arguments make no command. -/
inductive Refusal where
  | help
  | version
  | misuse
  deriving Repr, DecidableEq, Inhabited

/-- What has been made of the arguments so far. -/
structure Progress where
  verb : Option Verb
  /-- The settings file named in front of the verb. -/
  outerSettings : Option Text
  /-- The settings file named behind the verb. -/
  innerSettings : Option Text
  format : Option String
  lineNumbers : Bool
  file : Option Text
  /-- The flag whose value comes next. -/
  awaiting : Option Flag
  /-- Whether hyphens have lost their meaning. -/
  literal : Bool
  deriving Inhabited

namespace Progress

/-- The state before the first argument. -/
def start : Progress := ⟨none, none, none, none, false, none, none, false⟩

/-- Takes the value of a flag. No flag has two values. -/
def give (progress : Progress) (flag : Flag) (value : Text) : Except Refusal Progress :=
  let progress := { progress with awaiting := none }
  match flag, progress.verb with
  | .settings, none =>
    if progress.outerSettings.isSome then .error .misuse
    else .ok { progress with outerSettings := value }
  | .settings, some _ =>
    if progress.innerSettings.isSome then .error .misuse
    else .ok { progress with innerSettings := value }
  | .format, some verb =>
    if progress.format.isNone ∧ String.ofList value ∈ verb.formats then
      .ok { progress with format := String.ofList value }
    else .error .misuse
  | _, _ => .error .misuse

/-- Takes a flag and the value that is attached to it. -/
def meet (progress : Progress) (flag : Flag) (value : Option Text) : Except Refusal Progress :=
  if !flag.belongsTo progress.verb then .error .misuse
  else if flag.takesValue then
    match value with
    | some value => progress.give flag value
    | none => .ok { progress with awaiting := flag }
  else if value.isSome then .error .misuse
  else match flag with
    | .help => .error .help
    | .version => .error .version
    | _ =>
      if progress.lineNumbers then .error .misuse else .ok { progress with lineNumbers := true }

/-- Takes an argument without hyphens: the verb first and then the file. -/
def plain (progress : Progress) (argument : Text) : Except Refusal Progress :=
  match progress.verb, progress.file with
  | none, _ =>
    match Verb.ofName? (String.ofList argument) with
    | some verb => if progress.literal then .error .misuse else .ok { progress with verb := verb }
    | none => if argument == "help".toList then .error .help else .error .misuse
  | some _, none => .ok { progress with file := argument }
  | some _, some _ => .error .misuse

/-- Takes what stands behind two hyphens. -/
def long (progress : Progress) (text : Text) : Except Refusal Progress :=
  let word := String.ofList (text.takeWhile (· != '='))
  let value := match text.dropWhile (· != '=') with
    | _ :: value => some value
    | [] => none
  match Flag.all.find? (·.word == word) with
  | some flag => progress.meet flag value
  | none => .error .misuse

/-- Takes what stands behind one hyphen: a letter, and a value if anything follows it. -/
def short (progress : Progress) (letter : Char) (text : Text) : Except Refusal Progress :=
  let value := match text with
    | [] => none
    | '=' :: value => some value
    | value => some value
  match Flag.all.find? (·.letter? == some letter) with
  | some flag =>
    if flag.takesValue then progress.meet flag value else progress.meet flag none
  | none => .error .misuse

/-- Takes an argument. -/
def take (progress : Progress) (argument : Text) : Except Refusal Progress :=
  if progress.literal then progress.plain argument
  else match progress.awaiting, argument with
    | some flag, ['-'] => progress.give flag ['-']
    | some _, '-' :: _ => .error .misuse
    | some flag, value => progress.give flag value
    | none, ['-', '-'] => .ok { progress with literal := true }
    | none, '-' :: '-' :: text => progress.long text
    | none, '-' :: letter :: text => progress.short letter text
    | none, argument => progress.plain argument

/-- What all arguments together make. -/
def finish (progress : Progress) : Except Refusal Command :=
  match progress.awaiting, progress.verb, progress.file with
  | none, some verb, some file =>
    .ok
      { settingsFile := progress.innerSettings <|> progress.outerSettings
        verb
        format := progress.format.getD (verb.formats.headD "")
        lineNumbers := progress.lineNumbers
        file }
  | _, _, _ => .error .misuse

end Progress

/-- Reads arguments from left to right. -/
def ofArguments (arguments : List Text) : Except Refusal Command :=
  (arguments.foldlM Progress.take Progress.start).bind Progress.finish

/-- What a command leaves behind. -/
structure Outcome where
  exit : Nat
  output : Text
  errors : Text
  deriving Repr, DecidableEq, Inhabited

namespace Outcome

/-- Everything went well. -/
def success (output : Text) : Outcome := ⟨0, output, []⟩

/-- Something is wrong, in lines. -/
def failure (lines : List String) : Outcome :=
  ⟨1, [], lines.flatMap fun line => line.toList ++ ['\n']⟩

end Outcome

/-- What a command makes of the text of its file. -/
def outcome (command : Command) (settings : Settings) (text : Text) : Outcome :=
  match command.verb with
  | .tokens =>
    .success (Report.tokens (if command.format == "json" then .json else .listing) settings text)
  | .tree =>
    let options := settings.outline
    let options :=
      { options with showLineNumbers := options.showLineNumbers || command.lineNumbers }
    .success (Report.tree (if command.format == "json" then .json else .outline) options text)
  | .check =>
    match Report.problems settings.maxProblems command.file text with
    | [] => .success (command.file ++ ": no problems found\n".toList)
    | lines => .failure lines

/-- The error of a file that cannot be read. -/
def unreadable (file : Text) (cause : String) : Outcome :=
  .failure ["Error reading " ++ String.ofList file ++ ": " ++ cause]

/-- Runs a command. -/
def run {m : Type → Type} [Monad m] (files : FileReader m) (command : Command) : m Outcome := do
  let sources := command.settingsFile.toList.map Settings.Source.file
  match ← (Settings.load files sources).run with
  | .error fault => return .failure ["Configuration error: " ++ fault.message]
  | .ok settings =>
    match ← files command.file with
    | none => return unreadable command.file "No such file or directory (os error 2)"
    | some content =>
      match Text.ofBytes? content with
      | none => return unreadable command.file "stream did not contain valid UTF-8"
      | some text => return command.outcome settings text

end Command

end RSource
