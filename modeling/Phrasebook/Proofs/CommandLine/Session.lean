import Phrasebook.CommandLine.Outcome
import Phrasebook.Proofs.FileSystem.Entry

/-!
# What a run leaves behind

Only a `normalize` command with a place for its output changes the file system, by one write
(`files_run`). So a run keeps a file system well-formed (`wellFormed_run`).
-/

namespace Phrasebook.CommandLine

variable {session : Session} {settings : Settings}

theorem session_withResource {file : String} {next : Catalog → Outcome}
    (hnext : ∀ catalog, (next catalog).session = session) :
    (withResource session file next).session = session := by
  unfold withResource
  split
  · exact hnext _
  · rfl

theorem files_catalogFor (request : LookupRequest) :
    (catalogFor session settings request).2.files = session.files := by
  unfold catalogFor
  split
  · rfl
  · split
    · rfl
    · dsimp only
      split <;> rfl

theorem files_writeCanonical (file : String) (output : Option String) :
    (writeCanonical session file output).session.files = session.files ∨
      ∃ path ∈ output, ∃ content,
        session.files.write path content =
          .ok (writeCanonical session file output).session.files := by
  unfold writeCanonical withResource
  split
  · cases output with
    | none => exact .inl rfl
    | some path =>
      dsimp only
      split
      · rename_i files hwrite
        exact .inr ⟨path, rfl, _, hwrite⟩
      · exact .inl rfl
  · exact .inl rfl

theorem files_showTranslation (request : LookupRequest) :
    (showTranslation session settings request).session.files = session.files := by
  have hcatalog : (catalogFor session settings request).2.files = session.files :=
    files_catalogFor request
  unfold showTranslation
  split
  · rename_i chosen hchosen
    rw [hchosen] at hcatalog
    split
    · exact hcatalog
    · split
      · exact hcatalog
      · exact hcatalog

/-- A command leaves the file system as it is, or after one write to the output of a `normalize`. -/
theorem files_execute (command : Command) :
    (execute session settings command).session.files = session.files ∨
      ∃ file output content, command = .normalize file (some output) ∧
        session.files.write output content =
          .ok (execute session settings command).session.files := by
  cases command with
  | stats file json =>
    have hsession : (showCoverage session file json).session = session :=
      session_withResource fun _ => rfl
    exact .inl (congrArg Session.files hsession)
  | check file json =>
    have hsession : (showMismatches session file json).session = session :=
      session_withResource fun _ => rfl
    exact .inl (congrArg Session.files hsession)
  | locales directories filePrefix json => exact .inl rfl
  | lookup request => exact .inl (files_showTranslation request)
  | normalize file output =>
    obtain hsame | ⟨path, rfl, content, hwrite⟩ := files_writeCanonical file output
    · exact .inl hsame
    · exact .inr ⟨file, path, content, rfl, hwrite⟩

/-- A run changes at most one file, and only for a `normalize` with a place for its output. -/
theorem files_run (invocation : Invocation) :
    (run session invocation).session.files = session.files ∨
      ∃ file output content, invocation.command = .normalize file (some output) ∧
        session.files.write output content = .ok (run session invocation).session.files := by
  unfold run
  split
  · exact .inl rfl
  · exact files_execute invocation.command

theorem wellFormed_run (hfiles : session.files.WellFormed) (invocation : Invocation) :
    (run session invocation).session.files.WellFormed := by
  obtain hsame | ⟨file, output, content, -, hwrite⟩ := files_run invocation
  · rwa [hsame]
  · exact hfiles.write hwrite

end Phrasebook.CommandLine
