import Phrasebook.Markup.Fault
import Phrasebook.Resource.Element

/-!
# Faults of a translation resource

What can be wrong with a resource: its markup, or the way its elements are put together.
-/

namespace Phrasebook.Resource

inductive Fault where
  | markup (fault : Markup.Fault)
  /-- The outermost element is not the root of a resource. -/
  | otherRoot (name : String)
  | repeatedRoot
  | misplaced (element expected found : Element)
  | byteWithoutValue
  | badByteValue (value : String)
  | messageWithoutSource
  | contextWithoutName
  | textOutsideRoot
  | endInside (element : Element)
  | missingRoot
  | unbalancedEnd
  deriving DecidableEq, Repr

def Fault.message : Fault → String
  | .markup fault => fault.message
  | .otherRoot name => s!"expected <TS> root element, found <{name}>"
  | .repeatedRoot => "nested or repeated <TS> element"
  | .misplaced element expected found =>
    s!"<{element.role}> must be inside {expected.label}, found inside {found.label}"
  | .byteWithoutValue => "<byte> without value"
  | .badByteValue value => s!"invalid <byte> value '{value}'"
  | .messageWithoutSource => "<message> without <source>"
  | .contextWithoutName => "<context> without <name>"
  | .textOutsideRoot => "text outside of the root element"
  | .endInside element => s!"unexpected end of input inside {element.label}"
  | .missingRoot => "missing <TS> root element"
  | .unbalancedEnd => "unbalanced closing tag"

end Phrasebook.Resource
