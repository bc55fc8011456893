import Phrasebook.FileSystem
import Phrasebook.Resource.Fault

/-!
# Load errors

Only loading can fail; looking up cannot.
-/

namespace Phrasebook

/-- Why there is no catalog. -/
inductive LoadError where
  | malformed (fault : Resource.Fault) (position : Nat)
  | notFound (locale : String) (searched : List String)
  | invalidLocale (identifier : String)
  | unreadable (path : String) (cause : FileError)
  deriving DecidableEq, Repr

namespace LoadError

def message : LoadError → String
  | .malformed fault position =>
    s!"malformed translation resource at byte {position}: {fault.message}"
  | .notFound locale searched =>
    s!"no translation resource for locale '{locale}' (searched {searched.length} path(s))"
  | .invalidLocale identifier => s!"invalid locale identifier: '{identifier}'"
  | .unreadable path cause => s!"failed to read {path}: {cause.message}"

/-- There is no data for the locale, as opposed to bad data. -/
def isMissing : LoadError → Bool
  | .notFound _ _ => true
  | _ => false

end LoadError

end Phrasebook
