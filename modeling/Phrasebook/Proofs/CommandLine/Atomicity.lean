import Phrasebook.Proofs.CommandLine.Session
import Phrasebook.Proofs.FileSystem.Writing

/-!
# Runs that fail

Whatever can fail comes before the first output and before the write to a file. So a run ends in one
of four ways (`ends_run`): it fails and leaves nothing behind, it prints, it prints the mismatches
that a check has found, or it writes the canonical form of a resource to the file that its output
names. Output goes to a place that takes all of it.
-/

namespace Phrasebook.CommandLine

variable {session : Session} {settings : Settings} {invocation : Invocation}

/-- The error comes after what was found has been printed. -/
def CommandError.isFinding : CommandError → Bool
  | .mismatchesFound _ _ => true
  | .settings _ | .load _ | .write _ _ | .countWithoutForms _ _ => false

/-- The ways in which a run can end. -/
inductive Ends (session : Session) (invocation : Invocation) : Outcome → Prop where
  | failed {after : Session} {error : CommandError} (hfiles : after.files = session.files)
      (herror : error.isFinding = false) : Ends session invocation (.failed after error)
  | printed {after : Session} {output : String} (hfiles : after.files = session.files)
      (hcommand : ∀ file path, invocation.command ≠ .normalize file (some path)) :
      Ends session invocation (.printed after output)
  | found {file : String} {json : Bool} {settings : Settings} {catalog : Catalog}
      (hcommand : invocation.command = .check file json)
      (hsettings : settingsOf session invocation = .ok settings)
      (hparse : (Resource.parseFile session.files file).value = .ok catalog)
      (hmismatches : catalog.mismatches ≠ []) :
      Ends session invocation (showMismatches session file json)
  | wrote {file path : String} {catalog : Catalog} {after : FileSystem}
      (hcommand : invocation.command = .normalize file (some path))
      (hparse : (Resource.parseFile session.files file).value = .ok catalog)
      (hwrite : session.files.write path (Resource.render catalog).toUTF8 = .ok after) :
      Ends session invocation (.printed { session with files := after } "")

theorem withResource_of_ok {file : String} {catalog : Catalog}
    (hparse : (Resource.parseFile session.files file).value = .ok catalog)
    (next : Catalog → Outcome) :
    withResource session file next = next catalog := by
  rw [withResource, hparse]

theorem withResource_of_error {file : String} {error : LoadError}
    (hparse : (Resource.parseFile session.files file).value = .error error)
    (next : Catalog → Outcome) :
    withResource session file next = .failed session (.load error) := by
  rw [withResource, hparse]

/-- A command that reads a resource ends the way it goes on with the catalog, or fails. -/
theorem ends_withResource {file : String} {next : Catalog → Outcome}
    (hnext : ∀ catalog, (Resource.parseFile session.files file).value = .ok catalog →
      Ends session invocation (next catalog)) :
    Ends session invocation (withResource session file next) := by
  cases hparse : (Resource.parseFile session.files file).value with
  | ok catalog =>
    rw [withResource_of_ok hparse]
    exact hnext catalog hparse
  | error error =>
    rw [withResource_of_error hparse]
    exact .failed rfl rfl

theorem showMismatches_of_ok {file : String} {catalog : Catalog} (json : Bool)
    (hparse : (Resource.parseFile session.files file).value = .ok catalog) :
    showMismatches session file json =
      { session
        output :=
          if json then (Json.array (catalog.mismatches.map Mismatch.json)).indented ++ "\n"
          else String.join (catalog.mismatches.map fun mismatch => mismatch.describe ++ "\n")
        error := if catalog.mismatches.isEmpty then none
          else some (.mismatchesFound catalog.mismatches.length file) } :=
  withResource_of_ok hparse _

theorem ends_showMismatches {file : String} {json : Bool}
    (hcommand : invocation.command = .check file json)
    (hsettings : settingsOf session invocation = .ok settings) :
    Ends session invocation (showMismatches session file json) := by
  apply ends_withResource
  intro catalog hparse
  by_cases hmismatches : catalog.mismatches = []
  · simp only [hmismatches]
    exact .printed rfl (by simp [hcommand])
  · have hfound := Ends.found hcommand hsettings hparse hmismatches
    rwa [showMismatches_of_ok json hparse] at hfound

theorem ends_writeCanonical {file : String} {output : Option String}
    (hcommand : invocation.command = .normalize file output) :
    Ends session invocation (writeCanonical session file output) := by
  apply ends_withResource
  intro catalog hparse
  cases output with
  | none => exact .printed rfl (by simp [hcommand])
  | some path =>
    cases hwrite : session.files.write path (Resource.render catalog).toUTF8 with
    | ok after =>
      simp only [hwrite]
      exact .wrote hcommand hparse hwrite
    | error cause =>
      simp only [hwrite]
      exact .failed rfl rfl

theorem ends_showTranslation {request : LookupRequest}
    (hcommand : invocation.command = .lookup request) :
    Ends session invocation (showTranslation session settings request) := by
  have hfiles := @files_showTranslation session settings request
  revert hfiles
  unfold showTranslation
  split
  rename_i chosen after hchosen
  split
  · exact fun hfiles => .failed hfiles rfl
  · split
    · exact fun hfiles => .printed hfiles (by simp [hcommand])
    · exact fun hfiles => .failed hfiles rfl

theorem ends_run (session : Session) (invocation : Invocation) :
    Ends session invocation (run session invocation) := by
  cases hsettings : settingsOf session invocation with
  | error error =>
    rw [run, hsettings]
    exact .failed rfl rfl
  | ok settings =>
    rw [run, hsettings]
    dsimp only
    cases hcommand : invocation.command with
    | stats file json =>
      apply ends_withResource
      intro catalog hparse
      exact .printed rfl (by simp [hcommand])
    | lookup request => exact ends_showTranslation hcommand
    | check file json => exact ends_showMismatches hcommand hsettings
    | normalize file output => exact ends_writeCanonical hcommand
    | locales directories filePrefix json => exact .printed rfl (by simp [hcommand])

theorem error_run_normalize {file path : String} {catalog : Catalog} {after : FileSystem}
    (hcommand : invocation.command = .normalize file (some path))
    (hsettings : settingsOf session invocation = .ok settings)
    (hparse : (Resource.parseFile session.files file).value = .ok catalog)
    (hwrite : session.files.write path (Resource.render catalog).toUTF8 = .ok after) :
    (run session invocation).error = none := by
  have hrun : run session invocation = writeCanonical session file (some path) := by
    rw [run, hsettings, hcommand]
    rfl
  rw [hrun, writeCanonical, withResource_of_ok hparse]
  simp only [hwrite]
  rfl

/-- What was found is printed, as text and as JSON. -/
theorem output_showMismatches_ne_empty {file : String} {catalog : Catalog} (json : Bool)
    (hparse : (Resource.parseFile session.files file).value = .ok catalog)
    (hmismatches : catalog.mismatches ≠ []) : (showMismatches session file json).output ≠ "" := by
  have hbreak : '\n' ∈ (showMismatches session file json).output.toList := by
    rw [showMismatches_of_ok json hparse]
    cases json with
    | true =>
      show '\n' ∈ (_ ++ "\n").toList
      rw [String.toList_append]
      exact List.mem_append_right _ List.mem_cons_self
    | false =>
      obtain ⟨first, hfirst⟩ := List.exists_mem_of_ne_nil _ hmismatches
      show '\n' ∈ (String.join _).toList
      rw [String.toList_join, List.mem_flatMap]
      refine ⟨_, List.mem_map_of_mem hfirst, ?_⟩
      rw [String.toList_append]
      exact List.mem_append_right _ List.mem_cons_self
  intro hempty
  rw [hempty] at hbreak
  cases hbreak

namespace Ends

variable {outcome : Outcome}

theorem unchanged (h : Ends session invocation outcome)
    (hkept : outcome.error ≠ none ∨ ∀ file path, invocation.command ≠ .normalize file (some path)) :
    outcome.session.files = session.files := by
  cases h with
  | failed hfiles _ => exact hfiles
  | printed hfiles _ => exact hfiles
  | found hcommand hsettings hparse hmismatches => rw [showMismatches_of_ok _ hparse]
  | wrote hcommand hparse hwrite =>
    obtain herror | hother := hkept
    · exact absurd rfl herror
    · exact absurd hcommand (hother _ _)

theorem written (h : Ends session invocation outcome) {file path : String}
    (hnormalize : invocation.command = .normalize file (some path))
    (herror : outcome.error = none) :
    ∃ catalog, (Resource.parseFile session.files file).value = .ok catalog ∧
      FileSystem.WroteOnly session.files outcome.session.files path
        (Resource.render catalog).toUTF8 := by
  cases h with
  | failed _ _ => cases herror
  | printed _ hcommand => exact absurd hnormalize (hcommand _ _)
  | found hcommand _ _ _ =>
    rw [hnormalize] at hcommand
    cases hcommand
  | wrote hcommand hparse hwrite =>
    rw [hnormalize] at hcommand
    cases hcommand
    exact ⟨_, hparse, FileSystem.wroteOnly_of_write hwrite⟩

/-- An error with output is one of a check that has found something. -/
theorem silent_or_found (h : Ends session invocation outcome) {error : CommandError}
    (herror : outcome.error = some error) :
    error.isFinding = false ∧ outcome.output = "" ∨
      ∃ file json settings catalog, invocation.command = .check file json ∧
        settingsOf session invocation = .ok settings ∧
        (Resource.parseFile session.files file).value = .ok catalog ∧ catalog.mismatches ≠ [] ∧
        error = .mismatchesFound catalog.mismatches.length file ∧ outcome.output ≠ "" := by
  cases h with
  | failed _ hfinding =>
    cases herror
    exact .inl ⟨hfinding, rfl⟩
  | printed _ _ => cases herror
  | @found file json settings catalog hcommand hsettings hparse hmismatches =>
    have hshown := output_showMismatches_ne_empty json hparse hmismatches
    rw [showMismatches_of_ok json hparse] at herror
    have hempty : catalog.mismatches.isEmpty = false := by simpa using hmismatches
    rw [hempty] at herror
    cases herror
    exact .inr ⟨file, json, settings, catalog, hcommand, hsettings, hparse, hmismatches, rfl,
      hshown⟩
  | wrote _ _ _ => cases herror

end Ends

theorem error_run_check {file : String} {json : Bool} {catalog : Catalog}
    (hcommand : invocation.command = .check file json)
    (hsettings : settingsOf session invocation = .ok settings)
    (hparse : (Resource.parseFile session.files file).value = .ok catalog)
    (hmismatches : catalog.mismatches ≠ []) :
    (run session invocation).error = some (.mismatchesFound catalog.mismatches.length file) := by
  have hrun : run session invocation = showMismatches session file json := by
    rw [run, hsettings, hcommand]
    rfl
  have hempty : catalog.mismatches.isEmpty = false := by simpa using hmismatches
  rw [hrun, showMismatches_of_ok json hparse, hempty]
  rfl

/-- A run does all that it is for, or it does nothing. A run that fails changes no file, and prints
nothing unless it is a check that has found mismatches; only `normalize` with an output changes a
file. -/
structure Atomic (session : Session) (invocation : Invocation) (outcome : Outcome) : Prop where
  unchanged :
    outcome.error ≠ none ∨ (∀ file path, invocation.command ≠ .normalize file (some path)) →
      outcome.session.files = session.files
  /-- The output holds the canonical form of what the input was before, be they one file or two. -/
  written : ∀ file path, invocation.command = .normalize file (some path) → outcome.error = none →
    ∃ catalog, (Resource.parseFile session.files file).value = .ok catalog ∧
      FileSystem.WroteOnly session.files outcome.session.files path (Resource.render catalog).toUTF8
  /-- It gets there whenever the settings, the input and the output allow it. -/
  completed : ∀ file path settings catalog after, invocation.command = .normalize file (some path) →
    settingsOf session invocation = .ok settings →
    (Resource.parseFile session.files file).value = .ok catalog →
    session.files.write path (Resource.render catalog).toUTF8 = .ok after → outcome.error = none
  silent : ∀ error, outcome.error = some error →
    (∀ count file, error ≠ .mismatchesFound count file) →
    outcome.output = ""
  /-- A check fails with findings exactly if there are mismatches in the catalog that it reads. -/
  found : ∀ count file, outcome.error = some (.mismatchesFound count file) ↔
    ∃ json settings catalog, invocation.command = .check file json ∧
      settingsOf session invocation = .ok settings ∧
      (Resource.parseFile session.files file).value = .ok catalog ∧
      catalog.mismatches ≠ [] ∧ count = catalog.mismatches.length
  shown : ∀ count file, outcome.error = some (.mismatchesFound count file) →
    outcome.output ≠ "" ∧ outcome.exitStatus = 1

/-- Every run is atomic, whatever the files and the environment are. -/
theorem run_atomic (session : Session) (invocation : Invocation) :
    Atomic session invocation (run session invocation) := by
  have hends := ends_run session invocation
  refine ⟨hends.unchanged, fun file path => hends.written, ?_, ?_, fun count file => ⟨?_, ?_⟩, ?_⟩
  · intro file path settings catalog after hcommand hsettings hparse hwrite
    exact error_run_normalize hcommand hsettings hparse hwrite
  · intro error herror hother
    obtain ⟨-, hsilent⟩ | ⟨file, json, settings, catalog, -, -, -, -, hfound, -⟩ :=
      hends.silent_or_found herror
    · exact hsilent
    · exact absurd hfound (hother _ _)
  · intro herror
    obtain ⟨hfinding, -⟩ |
        ⟨_, json, settings, catalog, hcommand, hsettings, hparse, hmismatches, hfound, -⟩ :=
      hends.silent_or_found herror
    · cases hfinding
    · cases hfound
      exact ⟨json, settings, catalog, hcommand, hsettings, hparse, hmismatches, rfl⟩
  · rintro ⟨json, settings, catalog, hcommand, hsettings, hparse, hmismatches, rfl⟩
    exact error_run_check hcommand hsettings hparse hmismatches
  · intro count file herror
    obtain ⟨hfinding, -⟩ | ⟨_, _, _, _, -, -, -, -, -, hshown⟩ := hends.silent_or_found herror
    · cases hfinding
    · refine ⟨hshown, ?_⟩
      rw [Outcome.exitStatus, herror]
      rfl

end Phrasebook.CommandLine
