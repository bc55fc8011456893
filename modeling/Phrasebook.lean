import Phrasebook.CommandLine.Outcome
import Phrasebook.Main
import Phrasebook.Proofs.Result
import Phrasebook.Proofs.Catalog.Builder
import Phrasebook.Proofs.Catalog.Run
import Phrasebook.Proofs.Markup.Content
import Phrasebook.Proofs.Resource.Meaning
import Phrasebook.Proofs.Resource.Reading
import Phrasebook.Proofs.Resource.Structure
import Phrasebook.Proofs.Resource.Refinement
import Phrasebook.Proofs.Resource.Accounting
import Phrasebook.Proofs.Catalog.Presentation
import Phrasebook.Proofs.Markup.Reference
import Phrasebook.Proofs.Resource.WrittenTag
import Phrasebook.Proofs.Text.Numeral
import Phrasebook.Proofs.Resource.Lines
import Phrasebook.Proofs.Resource.WrittenCatalog
import Phrasebook.Proofs.Catalog.Rebuilding
import Phrasebook.Proofs.Resource.WrittenMeaning
import Phrasebook.Proofs.Resource.RoundTrip
import Phrasebook.Proofs.Catalog.Reachable
import Phrasebook.Proofs.Catalog.Lookup
import Phrasebook.Proofs.Ascending
import Phrasebook.Proofs.Report.Consistency
import Phrasebook.Proofs.Template.Simultaneous
import Phrasebook.Proofs.CommandLine.Answer
import Phrasebook.Proofs.FileSystem.Entry
import Phrasebook.Proofs.CommandLine.Session
import Phrasebook.Proofs.Loader.Listing
import Phrasebook.Proofs.Markup.Truncation
import Phrasebook.Proofs.Markup.Seam
import Phrasebook.Proofs.Resource.Truncation
import Phrasebook.Proofs.Catalog.Selection
import Phrasebook.Proofs.Catalog.Provenance
import Phrasebook.Proofs.Loader.Notices
import Phrasebook.Proofs.Translator.History
import Phrasebook.Proofs.Text.Splitting
import Phrasebook.Proofs.FileSystem.Writing
import Phrasebook.Proofs.CommandLine.Atomicity
import Phrasebook.Proofs.Report.Tally
import Phrasebook.Proofs.Catalog.Interleaving
import Phrasebook.Proofs.Locale.Names
import Phrasebook.Proofs.Locale.Canonical
import Phrasebook.Proofs.Loader.Containment
import Phrasebook.Proofs.Loader.Completeness
import Phrasebook.Proofs.Settings.Precedence
import Phrasebook.Proofs.Resource.RawControls
import Phrasebook.Proofs.Resource.Parts
import Phrasebook.Proofs.Resource.Respelling
import Phrasebook.Proofs.CommandLine.Fallback
import Phrasebook.Proofs.Template.Arguments
import Phrasebook.Proofs.Catalog.Shadowing
import Phrasebook.Proofs.Report.Exactness
import Phrasebook.Proofs.Plural.Forms
import Phrasebook.Proofs.Text.Padding
import Phrasebook.Proofs.Settings.Padding
import Phrasebook.Proofs.Plural.Language
import Phrasebook.Proofs.Loader.Canonical
import Phrasebook.Proofs.Text.Replacement
import Phrasebook.Proofs.Template.CountMarkers
import Phrasebook.Proofs.Report.Conservation
import Phrasebook.Proofs.Loader.Precedence
import Phrasebook.Proofs.Resource.OpenPath
import Phrasebook.Proofs.Resource.Bookkeeping
import Phrasebook.Proofs.Resource.Invariant
