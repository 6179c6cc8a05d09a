/-!
# Names in paths

The name of the file that a path leads to, and its extension.
-/

namespace CaretLayout.Path

/-- What follows the last slash. -/
def fileName (path : List Char) : List Char :=
  (path.reverse.takeWhile (· != '/')).reverse

/-- What follows the last dot of the file name.  A name whose only dot is at its front has no
extension. -/
def extension? (path : String) : Option String :=
  let backwards := (fileName path.toList).reverse
  match backwards.dropWhile (· != '.') with
  | '.' :: _ :: _ => some (String.ofList (backwards.takeWhile (· != '.')).reverse)
  | _ => none

/-- The directory that a path stands in, without its last name. -/
def parent (path : List Char) : List Char :=
  ((path.reverse.dropWhile (· != '/')).drop 1).reverse

end CaretLayout.Path
