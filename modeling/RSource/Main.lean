/-
**The program.**

It runs the command that its arguments make. Where they make none, it tells how it is used.
-/

import RSource.CommandLine

namespace RSource

/-- How the program is used. -/
def usage : String :=
  "Usage: rsource [--config <file>] <command> <path>\n\n"
    ++ "Commands:\n"
    ++ "  tokens  List the tokens of a file (--format text|json)\n"
    ++ "  tree    Print the syntax tree of a file (--format treeviz|json, --line-numbers)\n"
    ++ "  check   Report parse errors, exiting with status 1 when there are any\n"

/-- Reads a file of the system. -/
def readSystemFile : FileReader IO := fun path => do
  try
    let content ← IO.FS.readBinFile (String.ofList path)
    return some content.toList
  catch _ => return none

/-- Runs the command of some arguments and answers its status. -/
def runProgram (arguments : List String) : IO UInt32 := do
  match Command.ofArguments (arguments.map String.toList) with
  | .ok command =>
    let outcome ← command.run readSystemFile
    IO.print (String.ofList outcome.output)
    IO.eprint (String.ofList outcome.errors)
    return outcome.exit.toUInt32
  | .error .help =>
    IO.print usage
    return 0
  | .error .version =>
    IO.println "rsource 0.1.0"
    return 0
  | .error .misuse =>
    IO.eprint usage
    return 2

end RSource

def main (arguments : List String) : IO UInt32 := RSource.runProgram arguments
