import Mathlib.Algebra.GroupWithZero.Nat
import Mathlib.Data.List.Forall2
import Phrasebook.Proofs.Catalog.Interleaving
import Phrasebook.Proofs.CommandLine.Atomicity
import Phrasebook.Proofs.Report.Tally
import Phrasebook.Proofs.Resource.RoundTrip

/-!
# Coverage counts every message once

A tally classifies messages by their status and by whether their translation has text. Its three
numbers are those of the messages that may be shown, of the retired ones and of all others
(`Tally.Counts`), so they add up to the number of messages. Counting one more message keeps this
(`Tally.Counts.cons`), hence it holds of each context, and adding up the contexts neither loses a
message nor counts one twice (`Catalog.coverage_conserves`).
-/

namespace Phrasebook

namespace Tally

variable {tally : Tally} {messages : List Message}

/-- The tally is the one of these messages. -/
structure Counts (tally : Tally) (messages : List Message) : Prop where
  finished_eq : tally.finished = messages.countP Message.isPresentable
  retired_eq : tally.retired = messages.countP fun message => message.status.isRetired
  unfinished_eq : tally.unfinished =
    messages.countP fun message => !message.isPresentable && !message.status.isRetired

theorem counts_nil : Counts {} [] := ⟨rfl, rfl, rfl⟩

theorem counts_ofMessage (message : Message) : (ofMessage message).Counts [message] := by
  -- Emptiness matters for finished messages only.
  cases hstatus : message.status <;> cases hempty : message.translation.isEmpty <;>
    constructor <;> simp [ofMessage, Message.isPresentable, Status.isRetired, hstatus, hempty]

theorem Counts.append {other : Tally} {others : List Message} (h : tally.Counts messages)
    (hother : other.Counts others) : (tally.add other).Counts (messages ++ others) where
  finished_eq := by rw [List.countP_append, ← h.finished_eq, ← hother.finished_eq, add]
  retired_eq := by rw [List.countP_append, ← h.retired_eq, ← hother.retired_eq, add]
  unfinished_eq := by rw [List.countP_append, ← h.unfinished_eq, ← hother.unfinished_eq, add]

theorem Counts.cons (message : Message) (h : tally.Counts messages) :
    ((ofMessage message).add tally).Counts (message :: messages) :=
  (counts_ofMessage message).append h

theorem counts_sum (messages : List Message) : (sum (messages.map ofMessage)).Counts messages := by
  induction messages with
  | nil => exact counts_nil
  | cons message rest ih =>
    rw [List.map_cons, sum_cons]
    exact ih.cons message

theorem total_ofMessage (message : Message) : (ofMessage message).total = 1 := by
  unfold ofMessage
  split
  · split <;> rfl
  all_goals rfl

theorem total_add (a b : Tally) : (a.add b).total = a.total + b.total := by
  simp only [total, active, add]
  omega

/-- The classes cover all messages and do not overlap. -/
theorem total_sum_ofMessage (messages : List Message) :
    (sum (messages.map ofMessage)).total = messages.length := by
  induction messages with
  | nil => rfl
  | cons message rest ih =>
    rw [List.map_cons, sum_cons, total_add, total_ofMessage, ih, List.length_cons, Nat.add_comm]

theorem sum_eq (tallies : List Tally) :
    sum tallies =
      ⟨(tallies.map finished).sum, (tallies.map unfinished).sum, (tallies.map retired).sum⟩ := by
  induction tallies with
  | nil => rfl
  | cons tally rest ih =>
    rw [sum_cons, ih]
    simp only [List.map_cons, List.sum_cons]
    rfl

end Tally

namespace Coverage

theorem exists_table_eq (coverage : Coverage) :
    ∃ rest, coverage.table = coverage.summary ++ rest := by
  unfold table
  split
  · exact ⟨"", String.append_empty.symm⟩
  · simp only [String.append_assoc]
    exact ⟨_, rfl⟩

theorem exists_summary_eq (coverage : Coverage) : ∃ rest, coverage.summary =
    "language: " ++ coverage.language.getD "(unspecified)" ++ "\n" ++
      s!"messages: {coverage.totals.active + coverage.totals.retired} (finished " ++ rest := by
  unfold summary Tally.total
  simp only [String.append_assoc]
  exact ⟨_, rfl⟩

end Coverage

namespace Catalog

open CommandLine (Session)

/-- The coverage of a catalog counts every message once, in the context that holds it. -/
structure Conserved (catalog : Catalog) : Prop where
  /-- There is one entry for each context, empty ones included. -/
  contexts : List.Forall₂
    (fun context entry =>
      entry.context = context.name ∧ entry.tally.Counts context.messages.toList ∧
      entry.tally.finished + entry.tally.unfinished + entry.tally.retired = context.size)
    catalog.contexts.toList catalog.coverage.contexts
  /-- They come in the order in which the contexts were first named. -/
  inOrder : ∀ steps, catalog = (Run.ofSteps steps).builder.build →
    catalog.coverage.contexts.map (·.context) = mentions steps
  /-- The totals are the sums over the contexts, number by number. -/
  totals_eq : catalog.coverage.totals =
    { finished := (catalog.coverage.contexts.map (·.tally.finished)).sum
      unfinished := (catalog.coverage.contexts.map (·.tally.unfinished)).sum
      retired := (catalog.coverage.contexts.map (·.tally.retired)).sum }
  messageCount_eq : catalog.coverage.totals.finished + catalog.coverage.totals.unfinished +
    catalog.coverage.totals.retired = catalog.messageCount
  /-- A resource with this catalog is said to have as many messages. -/
  shown : ∀ (session : Session) settings file,
    (Resource.parseFile session.files file).value = .ok catalog →
      ∃ rest, (CommandLine.execute session settings (.stats file false)).output =
        "language: " ++ catalog.language.getD "(unspecified)" ++ "\n" ++
          s!"messages: {catalog.coverage.totals.active + catalog.coverage.totals.retired} (finished " ++
          rest

theorem total_coverage (catalog : Catalog) :
    catalog.coverage.totals.total = catalog.messageCount := by
  have htallies : catalog.filed.map (fun entry => Tally.ofMessage entry.2) =
      (catalog.filed.map Prod.snd).map Tally.ofMessage := by
    rw [List.map_map]
    rfl
  rw [totals_eq_sum_filed, htallies, Tally.total_sum_ofMessage, List.length_map,
    messageCount_eq_length_filed]

theorem coverage_conserves (catalog : Catalog) : catalog.Conserved where
  contexts := by
    show List.Forall₂ _ _ (catalog.contexts.toList.map Context.coverage)
    rw [List.forall₂_map_right_iff, List.forall₂_same]
    intro context _
    exact ⟨rfl, Tally.counts_sum _, Tally.total_sum_ofMessage _⟩
  inOrder := by
    rintro steps rfl
    have hnames := congrArg (List.map Prod.fst) (Run.contents_ofSteps steps)
    simpa [contents, coverage, Context.coverage, Function.comp_def] using hnames
  totals_eq := by
    show Tally.sum (catalog.coverage.contexts.map (·.tally)) = _
    rw [Tally.sum_eq, List.map_map, List.map_map, List.map_map]
    rfl
  messageCount_eq := total_coverage catalog
  shown := by
    intro session settings file hparse
    have houtput : (CommandLine.execute session settings (.stats file false)).output =
        catalog.coverage.table := by
      rw [CommandLine.execute, CommandLine.showCoverage, CommandLine.withResource_of_ok hparse]
      rfl
    obtain ⟨below, hbelow⟩ := catalog.coverage.exists_table_eq
    obtain ⟨rest, hrest⟩ := catalog.coverage.exists_summary_eq
    refine ⟨rest ++ below, ?_⟩
    rw [houtput, hbelow, hrest, String.append_assoc]
    rfl

/-- A context without messages, and one with messages of three kinds. -/
def surveyed : List Step :=
  [.openContext "Menu", .add "Player" { source := "Open", translation := .single "Otwórz" },
    .add "Player" { source := "Stop" },
    .add "Player" { source := "Seek", translation := .single "Szukaj", status := .obsolete }]

/-- A session with a resource that holds them. -/
def surveySession : Session where
  files :=
    { nodes := [(["player.ts"],
        .file (Resource.render (Run.ofSteps surveyed).builder.build).toUTF8)] }

theorem contents_surveyed : (Run.ofSteps surveyed).builder.build.contents =
    [("Menu", []),
      ("Player", [{ source := "Open", translation := .single "Otwórz" }, { source := "Stop" },
        { source := "Seek", translation := .single "Szukaj", status := .obsolete }])] := by
  rw [Run.contents_ofSteps]
  decide

/-- The coverage of this resource speaks of three messages. -/
theorem coverage_conserves_surveyed :
    ∃ rest, (CommandLine.execute surveySession {} (.stats "player.ts" false)).output =
      "language: (unspecified)\nmessages: 3 (finished " ++ rest := by
  have hread : surveySession.files.read "player.ts" =
      .ok (Resource.render (Run.ofSteps surveyed).builder.build).toUTF8 := rfl
  -- What is read is not the catalog that was written, but one with the same contents.
  obtain ⟨catalog, hparse, hcontents, hlanguage⟩ : ∃ catalog,
      (Resource.parseFile surveySession.files "player.ts").value = .ok catalog ∧
      catalog.contents = (Run.ofSteps surveyed).builder.build.contents ∧
      catalog.language = (Run.ofSteps surveyed).builder.language := by
    rw [Resource.parseFile, FileSystem.readText_of_read hread]
    obtain ⟨catalog, hparse, hlanguage, -, -, hcontents, -⟩ := Resource.exists_parse_render surveyed
    exact ⟨catalog, hparse, hcontents, hlanguage⟩
  have hcount : catalog.messageCount = 3 := by
    rw [messageCount_eq_length_filed, filed, hcontents, contents_surveyed]
    rfl
  have hconserved := coverage_conserves catalog
  obtain ⟨rest, hrest⟩ := hconserved.shown surveySession {} "player.ts" hparse
  have htotal : catalog.coverage.totals.active + catalog.coverage.totals.retired = 3 :=
    hconserved.messageCount_eq.trans hcount
  refine ⟨rest, ?_⟩
  rw [hrest, hlanguage, Run.language_ofSteps, htotal]
  exact congrArg (· ++ rest) (by decide)

end Catalog

end Phrasebook
