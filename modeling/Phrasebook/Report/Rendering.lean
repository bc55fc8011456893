import Phrasebook.Json
import Phrasebook.Report.Coverage
import Phrasebook.Report.Mismatch
import Phrasebook.Text.Quoted

/-!
# Texts of reports

Coverage as a table or as JSON, and placeholder mismatches as lines or as JSON.
-/

namespace Phrasebook

def padRight (width : Nat) (text : String) : String :=
  text ++ String.ofList (List.replicate (width - text.length) ' ')

def padLeft (width : Nat) (text : String) : String :=
  String.ofList (List.replicate (width - text.length) ' ') ++ text

namespace Coverage

def contextTitle : String := "CONTEXT"

/-- The width of the first column: that of the longest name or of the title. -/
def contextWidth (coverage : Coverage) : Nat :=
  (coverage.contexts.map (·.context.length)).foldl max contextTitle.length

def line (width : Nat) (context finished unfinished retired percent : String) : String :=
  padRight width context ++ "  " ++ padLeft 8 finished ++ "  " ++ padLeft 10 unfinished ++ "  " ++
    padLeft 7 retired ++ "  " ++ padLeft 8 percent ++ "\n"

def contextLine (width : Nat) (context : ContextCoverage) : String :=
  let tally := context.tally
  line width context.context (toString tally.finished) (toString tally.unfinished)
    (toString tally.retired) (Decimal.tenths tally.percent ++ "%")

def summary (coverage : Coverage) : String :=
  let totals := coverage.totals
  let language := coverage.language.getD "(unspecified)"
  s!"language: {language}\n" ++
    s!"messages: {totals.total} (finished {totals.finished}, unfinished {totals.unfinished}, " ++
    s!"retired {totals.retired})\n" ++
    s!"coverage: {Decimal.tenths totals.percent}%\n"

/-- The coverage for people. Without contexts there is no table. -/
def table (coverage : Coverage) : String :=
  if coverage.contexts.isEmpty then coverage.summary
  else
    let width := coverage.contextWidth
    coverage.summary ++ "\n" ++
      line width contextTitle "FINISHED" "UNFINISHED" "RETIRED" "COVERAGE" ++
      String.join (coverage.contexts.map (contextLine width))

def tallyJson (tally : Tally) : Json :=
  .object [("finished", .ofNat tally.finished), ("unfinished", .ofNat tally.unfinished),
    ("retired", .ofNat tally.retired)]

def percentJson (tally : Tally) : Json := .number (Decimal.text exported tally.percent)

def json (coverage : Coverage) : Json :=
  .object [("language", .ofText? coverage.language), ("totals", tallyJson coverage.totals),
    ("coverage_percent", percentJson coverage.totals),
    ("contexts", .array (coverage.contexts.map fun context =>
      .object [("context", .string context.context), ("counts", tallyJson context.tally),
        ("coverage_percent", percentJson context.tally)]))]

end Coverage

namespace Mismatch

/-- Placeholders after a word, if there are any. -/
def indexList (word : String) (indices : List Nat) : String :=
  if indices.isEmpty then ""
  else s!" {word} " ++ " ".intercalate (indices.map fun index => s!"%{index}")

def describe (mismatch : Mismatch) : String :=
  s!"{mismatch.context}: {Text.quoted mismatch.source}" ++ indexList "missing" mismatch.missing ++
    indexList "unexpected" mismatch.unexpected

def json (mismatch : Mismatch) : Json :=
  .object [("context", .string mismatch.context), ("source", .string mismatch.source),
    ("missing", .array (mismatch.missing.map .ofNat)),
    ("unexpected", .array (mismatch.unexpected.map .ofNat))]

end Mismatch

end Phrasebook
