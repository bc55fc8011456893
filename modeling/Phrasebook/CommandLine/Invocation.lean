import Phrasebook.CommandLine.Grammar

/-!
# Invocations

What a command line asks for: one of five commands, the settings to use and how much to log. `parse`
reads it from the words after the program's name.
-/

namespace Phrasebook.CommandLine

structure LookupRequest where
  /-- The resource to look in; without one the locale decides. -/
  file : Option String := none
  locale : Option String := none
  context : String
  source : String
  disambiguation : Option String := none
  args : List String := []
  count : Option Int := none
  deriving DecidableEq, Repr

inductive Command where
  | stats (file : String) (json : Bool)
  | lookup (request : LookupRequest)
  | check (file : String) (json : Bool)
  | normalize (file : String) (output : Option String)
  | locales (directories : List String) (filePrefix : Option String) (json : Bool)
  deriving DecidableEq, Repr

def Command.printsJson : Command → Bool
  | .stats _ json | .check _ json | .locales _ _ json => json
  | .lookup _ | .normalize _ _ => false

structure Invocation where
  verbosity : Nat := 0
  config : Option String := none
  command : Command
  deriving DecidableEq, Repr

inductive LogLevel where
  | warn
  | info
  | debug
  | trace
  deriving DecidableEq, Repr

def LogLevel.name : LogLevel → String
  | .warn => "warn"
  | .info => "info"
  | .debug => "debug"
  | .trace => "trace"

def LogLevel.ofVerbosity : Nat → LogLevel
  | 0 => .warn
  | 1 => .info
  | 2 => .debug
  | _ => .trace

/-! ## What each command accepts -/

def programName : String := "tscat"

def programVersion : String := "0.1.0"

/-- Options that may stand before and after the name of the command. -/
def globalOptions : List OptionRule :=
  [{ parameter := .verbose, letter := some 'v', name := "verbose", action := .counter },
    { parameter := .config, name := "config", action := .single .path },
    { parameter := .help, letter := some 'h', name := "help", action := .reject .help }]

def jsonOption : OptionRule := { parameter := .json, name := "json", action := .flag }

def commandNames : List String := ["stats", "lookup", "check", "normalize", "locales"]

def helpCommand : String := "help"

def rootGrammar : Grammar where
  options :=
    globalOptions ++
      [{ parameter := .version, letter := some 'V', name := "version", action := .reject .version }]
  commands := commandNames ++ [helpCommand]

def reportGrammar : Grammar where
  options := globalOptions ++ [jsonOption]
  operands := some { parameter := .file }

def lookupGrammar : Grammar where
  options :=
    globalOptions ++
      [{ parameter := .locale, name := "locale", action := .single .text },
        { parameter := .context, letter := some 'c', name := "context", action := .single .text },
        { parameter := .source, letter := some 's', name := "source", action := .single .text },
        { parameter := .disambiguation, letter := some 'd', name := "disambiguation",
          action := .single .text },
        { parameter := .argument, letter := some 'a', name := "arg", action := .repeated .text },
        { parameter := .count, letter := some 'n', name := "count", action := .single .integer }]
  operands := some { parameter := .file }

def normalizeGrammar : Grammar where
  options :=
    globalOptions ++
      [{ parameter := .output, letter := some 'o', name := "output", action := .single .path }]
  operands := some { parameter := .file }

def localesGrammar : Grammar where
  options :=
    globalOptions ++
      [{ parameter := .filePrefix, name := "prefix", action := .single .text }, jsonOption]
  operands := some { parameter := .directory, repeated := true }

/-! ## Reading -/

def required (given : List Given) (parameter : Parameter) : Except Rejection String :=
  match valuesOf given parameter with
  | value :: _ => .ok value
  | [] => .error .missingArgument

def optional (given : List Given) (parameter : Parameter) : Option String :=
  (valuesOf given parameter).head?

/-- The request of a `lookup`. A file and a locale exclude each other. -/
def lookupOf (given : List Given) : Except Rejection LookupRequest := do
  if isGiven given .file && isGiven given .locale then throw .conflict
  let context ← required given .context
  let source ← required given .source
  pure {
    file := optional given .file
    locale := optional given .locale
    context
    source
    disambiguation := optional given .disambiguation
    args := valuesOf given .argument
    count := (optional given .count).bind fun digits => Text.integer? digits.toList }

def commandOf (name : String) : Option (Grammar × (List Given → Except Rejection Command)) :=
  match name with
  | "stats" =>
    some (reportGrammar, fun given => do
      pure (.stats (← required given .file) (isGiven given .json)))
  | "lookup" => some (lookupGrammar, fun given => do pure (.lookup (← lookupOf given)))
  | "check" =>
    some (reportGrammar, fun given => do
      pure (.check (← required given .file) (isGiven given .json)))
  | "normalize" =>
    some (normalizeGrammar, fun given => do
      pure (.normalize (← required given .file) (optional given .output)))
  | "locales" =>
    some (localesGrammar, fun given =>
      pure (.locales (valuesOf given .directory) (optional given .filePrefix)
        (isGiven given .json)))
  | _ => none

/-- The rejection that answers `help`, given the names after it. Only one name can follow. -/
def helpRejection : List String → Rejection
  | [] => .help
  | [name] => if rootGrammar.commands.contains name then .help else .unknownCommand
  | _ => .unknownCommand

/-- Reads the words of a command; what they give is settled and checked. -/
def readCommand (name : String) (words : List String) :
    Except Rejection (Command × List Given) := do
  let some (grammar, build) := commandOf name | throw (helpRejection words)
  let reading ← grammar.read {} words
  let given := (← grammar.settle reading.state).given
  pure (← build given, given)

/-- How often a flag was given, up to the greatest count. -/
def countOf (given : List Given) (parameter : Parameter) : Nat :=
  min 255 (given.filter (·.parameter == parameter)).length

/-- Reads a command line. What stands after the name of the command counts before what stands in
front of it, both in faults and in global options. -/
def parse (words : List String) : Except Rejection Invocation := do
  let reading ← rootGrammar.read {} words
  match reading.command with
  | none =>
    let outer ← rootGrammar.settle reading.state
    throw (if outer.given.isEmpty then .nothingGiven else .missingCommand)
  | some (name, rest) =>
    let (command, inner) ← readCommand name rest
    let outer := (← rootGrammar.settle reading.state).given
    let verbosityFrom := if isGiven inner .verbose then inner else outer
    pure {
      verbosity := countOf verbosityFrom .verbose
      config := (optional inner .config).or (optional outer .config)
      command }

def usage : String :=
  s!"Usage: {programName} [OPTIONS] <COMMAND>\n\nCommands: " ++
    ", ".intercalate rootGrammar.commands ++ "\nOptions: " ++
    ", ".intercalate (rootGrammar.options.map fun option => "--" ++ option.name) ++ "\n"

def Rejection.text : Rejection → String
  | .version => s!"{programName} {programVersion}\n"
  | _ => usage

end Phrasebook.CommandLine
