/-!
# Record text

The values of this library describe themselves as a name with labelled fields between braces.
Fields that must not be shown are left out, and two dots stand for them.

## Main definitions

* `Record.text` — a name with all of its fields
* `Record.partialText` — a name with some of its fields
-/

namespace KeyCustody.Record

/-- The fields with their labels, separated by commas. -/
def fieldText (fields : List (String × String)) : String :=
  ", ".intercalate (fields.map fun f => f.1 ++ ": " ++ f.2)

/-- A name with all of its fields. -/
def text (name : String) (fields : List (String × String)) : String :=
  name ++ " \x7b " ++ fieldText fields ++ " \x7d"

/-- A name with some of its fields. -/
def partialText (name : String) (fields : List (String × String)) : String :=
  name ++ " \x7b " ++ fieldText fields ++ ", .. \x7d"

end KeyCustody.Record
