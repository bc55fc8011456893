import Phrasebook.CommandLine.Invocation
import Phrasebook.Report.Rendering
import Phrasebook.Resource.Writer
import Phrasebook.Settings
import Phrasebook.Translator

/-!
# Running commands

A command runs in a session: a file system, an environment and the active catalog. Its outcome is
what it prints, an error if there is one, and the session afterwards. Settings are loaded before any
command, so their errors come first.
-/

namespace Phrasebook.CommandLine

/-- What a command works with. -/
structure Session where
  files : FileSystem := {}
  environment : Environment := []
  translator : Translator := {}

/-- Why a command fails. -/
inductive CommandError where
  | settings (error : Settings.Error)
  | load (error : LoadError)
  | write (path : String) (cause : FileError)
  /-- A count was given for a message without forms. -/
  | countWithoutForms (source context : String)
  | mismatchesFound (count : Nat) (file : String)
  deriving DecidableEq, Repr

namespace CommandError

def message : CommandError → String
  | .settings error => "configuration error: " ++ error.message
  | .load error => error.message
  | .write path cause => s!"cannot write {path}: {cause.message}"
  | .countWithoutForms source context =>
    s!"invalid argument: --count given but \"{source}\" in context {context} is not a numerus message"
  | .mismatchesFound count file => s!"{count} placeholder issue(s) in {file}"

/-- The exit status of an error: one for findings and bad requests, two where a file cannot be
used. -/
def exitCode : CommandError → UInt32
  | .load _ | .write _ _ => 2
  | .settings _ | .countWithoutForms _ _ | .mismatchesFound _ _ => 1

def report (json : Bool) (error : CommandError) : String :=
  if json then
    (Json.object [("error", .string error.message), ("exit_code", .ofNat error.exitCode.toNat),
      ("status", .string "error")]).compact ++ "\n"
  else s!"{programName}: {error.message}\n"

end CommandError

/-- What a command comes to. -/
structure Outcome where
  output : String := ""
  error : Option CommandError := none
  session : Session

namespace Outcome

def printed (session : Session) (output : String) : Outcome := { output, session }

def failed (session : Session) (error : CommandError) : Outcome := { error := some error, session }

def exitStatus (outcome : Outcome) : UInt32 := outcome.error.elim 0 CommandError.exitCode

end Outcome

/-- Goes on with a resource file, or fails. -/
def withResource (session : Session) (file : String) (next : Catalog → Outcome) : Outcome :=
  match (Resource.parseFile session.files file).value with
  | .ok catalog => next catalog
  | .error error => .failed session (.load error)

def showCoverage (session : Session) (file : String) (json : Bool) : Outcome :=
  withResource session file fun catalog =>
    .printed session <|
      if json then catalog.coverage.json.indented ++ "\n" else catalog.coverage.table

/-- Shows the placeholder mismatches of a resource; any mismatch is a failure. -/
def showMismatches (session : Session) (file : String) (json : Bool) : Outcome :=
  withResource session file fun catalog =>
    let mismatches := catalog.mismatches
    { session
      output :=
        if json then (Json.array (mismatches.map Mismatch.json)).indented ++ "\n"
        else String.join (mismatches.map fun mismatch => mismatch.describe ++ "\n")
      error := if mismatches.isEmpty then none else some (.mismatchesFound mismatches.length file) }

/-- Prints the canonical form of a resource, or writes it to a file. -/
def writeCanonical (session : Session) (file : String) (output : Option String) : Outcome :=
  withResource session file fun catalog =>
    let text := Resource.render catalog
    match output with
    | none => .printed session text
    | some path =>
      match session.files.write path text.toUTF8 with
      | .ok files => .printed { session with files } ""
      | .error cause => .failed session (.write path cause)

/-- The loader of a `locales` command: directories and the name's start replace those of the
settings. -/
def localesLoader (settings : Settings) (directories : List String) (filePrefix : Option String) :
    Loader where
  directories := if directories.isEmpty then settings.directories else directories
  filePrefix := filePrefix.getD settings.filePrefix

def listLocales (session : Session) (settings : Settings) (directories : List String)
    (filePrefix : Option String) (json : Bool) : Outcome :=
  let locales := (localesLoader settings directories filePrefix).available session.files
  .printed session <|
    if json then (Json.array (locales.map .string)).compact ++ "\n"
    else String.join (locales.map (· ++ "\n"))

/-- The catalog that answers a request: that of its file, else that of its locale, else that of the
settings or the environment. A locale that the request asks for must load; where any other cannot be
loaded, the source language answers. -/
def catalogFor (session : Session) (settings : Settings) (request : LookupRequest) :
    Except LoadError Catalog × Session :=
  match request.file with
  | some file => ((Resource.parseFile session.files file).value, session)
  | none =>
    match request.locale.or (settings.startLocale session.environment) with
    | none =>
      let translator := session.translator.reset.translator
      (.ok translator.active, { session with translator })
    | some locale =>
      let switch := session.translator.switch settings.loader session.files locale
      let session := { session with translator := switch.translator }
      match switch.outcome with
      | .error error =>
        (if request.locale.isSome then .error error else .ok switch.translator.active, session)
      | .ok () => (.ok switch.translator.active, session)

/-- A count is only for messages with forms; a message that is not there passes. -/
def countFits (catalog : Catalog) (request : LookupRequest) : Bool :=
  request.count.isNone ||
    (catalog.lookup? request.context request.source request.disambiguation).all Message.hasForms

def answer (catalog : Catalog) (request : LookupRequest) : String :=
  match request.count with
  | some count =>
    Template.withArgs
      (catalog.translateCounted request.context request.source request.disambiguation count)
      request.args
  | none =>
    catalog.translateWith request.context request.source request.args request.disambiguation

def showTranslation (session : Session) (settings : Settings) (request : LookupRequest) : Outcome :=
  let (catalog, session) := catalogFor session settings request
  match catalog with
  | .error error => .failed session (.load error)
  | .ok catalog =>
    if countFits catalog request then .printed session (answer catalog request ++ "\n")
    else .failed session (.countWithoutForms request.source request.context)

def execute (session : Session) (settings : Settings) : Command → Outcome
  | .stats file json => showCoverage session file json
  | .lookup request => showTranslation session settings request
  | .check file json => showMismatches session file json
  | .normalize file output => writeCanonical session file output
  | .locales directories filePrefix json => listLocales session settings directories filePrefix json

/-- The settings of an invocation: those of its file, or the defaults, with those of the
environment. -/
def settingsOf (session : Session) (invocation : Invocation) : Except Settings.Error Settings := do
  let settings ← invocation.config.elim (.ok {}) (Settings.parseFile session.files)
  (settings.override session.environment).checked

def pathsOf (settings : Settings) (environment : Environment) : Command → List String
  | .stats file _ | .check file _ => [file]
  | .normalize file output => file :: output.toList
  | .locales directories filePrefix _ => (localesLoader settings directories filePrefix).directories
  | .lookup request =>
    match request.file with
    | some file => [file]
    | none =>
      ((request.locale.or (settings.startLocale environment)).bind Locale.parse?).elim []
        settings.loader.probes

def run (session : Session) (invocation : Invocation) : Outcome :=
  match settingsOf session invocation with
  | .error error => .failed session (.settings error)
  | .ok settings => execute session settings invocation.command

end Phrasebook.CommandLine
