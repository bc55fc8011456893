import Phrasebook.CommandLine.Outcome

/-!
# The program

Takes over what a run needs from the operating system as values, runs the command on them, and
carries out what it comes to.
-/

open Phrasebook

/-- Takes over what is at a place. A directory comes with the names in it. -/
def observe (files : FileSystem) (place : Place) : IO FileSystem := do
  let path := (← IO.currentDir) / FileSystem.pathOf place
  if ← path.isDir then
    let files := files.makeDirectories place
    let entries := (← path.readDir.toBaseIO).toOption.getD #[]
    entries.foldlM (fun files entry => do
      let inner := entry.fileName :: place
      if (files.nodeAt? inner).isSome then pure files
      else if ← entry.path.isDir then pure (files.makeDirectories inner)
      else pure (files.addFile inner .empty)) files
  else
    match ← (IO.FS.readBinFile path).toBaseIO with
    | .ok content => pure (files.addFile place content)
    | .error _ => pure files

def observePaths (files : FileSystem) (paths : List String) : IO FileSystem :=
  (paths.flatMap files.waypoints).eraseDups.foldlM observe files

def readEnvironment : IO Environment :=
  (Environment.directoryVariable :: Environment.localeVariables).filterMapM fun name => do
    pure ((← IO.getEnv name).map fun value => (name, value))

/-- Runs an invocation and returns the exit status. -/
def perform (invocation : CommandLine.Invocation) : IO UInt32 := do
  let environment ← readEnvironment
  let here := ((Path.parts (← IO.currentDir).toString).filter (!·.isEmpty)).reverse
  let start := (FileSystem.mk [] here).makeDirectories here
  let files ← observePaths start invocation.config.toList
  let files ←
    match CommandLine.settingsOf { files, environment } invocation with
    | .ok settings =>
      observePaths files (CommandLine.pathsOf settings environment invocation.command)
    | .error _ => pure files
  let outcome := CommandLine.run { files, environment } invocation
  IO.print outcome.output
  for (place, content) in outcome.session.files.changedSince files do
    IO.FS.writeBinFile (FileSystem.pathOf place) content
  if let some error := outcome.error then
    IO.eprint (error.report invocation.command.printsJson)
  pure outcome.exitStatus

def main (words : List String) : IO UInt32 := do
  match CommandLine.parse words with
  | .ok invocation => perform invocation
  | .error rejection =>
    if rejection.exitCode = 0 then IO.print rejection.text else IO.eprint rejection.text
    pure rejection.exitCode
