import KeyCustody.Text.Segments

/-!
# Paths

A path is a text: names between slashes, seen from some directory. Nothing is looked up here;
these are the operations on the text alone, by which the paths of output files are made.

## Main definitions

* `Path.fileName`, `Path.directory` — the last name, and what leads up to it
* `Path.stem` — the last name without its extension
* `Path.withFileName` — another file in the same directory
-/

namespace KeyCustody.Path

/-- The segments of a path. -/
def segments (path : String) : List String :=
  (Segments.cut '/' path.toList).map String.ofList

/-- The last name of a path. -/
def fileName (path : String) : String :=
  (segments path).getLast?.getD ""

/-- Strips the segments at the end that lead nowhere: empty ones, and ones of a single dot unless
it stands first. The path is given as the reverse of its segments. -/
def withoutIdleEnd : List String → List String
  | [first] => [first]
  | last :: earlier => if last = "" ∨ last = "." then withoutIdleEnd earlier else last :: earlier
  | [] => []

/-- What leads up to the last name, with the slash before it; for a name alone it is empty. -/
def directory (path : String) : String :=
  match withoutIdleEnd ((segments path).reverse.drop 1) with
  | [] => ""
  | l => "/".intercalate l.reverse ++ "/"

/-- The characters before the last dot, if there is one. -/
def beforeLastDot? (name : List Char) : Option (List Char) :=
  match name.reverse.dropWhile (· ≠ '.') with
  | [] => none
  | _ :: before => some before.reverse

/-- The last name without its extension. A dot that begins the name begins no extension. -/
def stem (path : String) : String :=
  let name := (fileName path).toList
  match beforeLastDot? name with
  | none | some [] => String.ofList name
  | some before => String.ofList before

/-- The path of another file in the same directory. -/
def withFileName (path name : String) : String := directory path ++ name

end KeyCustody.Path
