/-!
# Paths

Paths are texts; a slash separates the parts and an absolute path starts with one. `splitExtension?`
cuts a file name at its last dot.
-/

namespace Phrasebook.Path

def isAbsolute (path : String) : Bool := path.toList.head? == some '/'

/-- What stands between the slashes of a path, empty parts included. -/
def parts (path : String) : List String := (path.toList.splitOnP (· == '/')).map String.ofList

/-- A path inside a directory. An absolute path stays as it is. -/
def join (directory path : String) : String :=
  if isAbsolute path then path
  else if directory.isEmpty || directory.toList.getLast? == some '/' then directory ++ path
  else directory ++ "/" ++ path

/-- The stem and the extension of a file name. There must be something before the last dot. -/
def splitExtension? (name : List Char) : Option (List Char × List Char) :=
  let reversed := name.reverse
  match reversed.dropWhile (· != '.') with
  | _ :: c :: stem => some ((c :: stem).reverse, (reversed.takeWhile (· != '.')).reverse)
  | _ => none

end Phrasebook.Path
