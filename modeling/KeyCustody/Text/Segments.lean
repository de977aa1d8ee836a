/-!
# Segments of a text

Paths, resource names and the names of variables are sequences of segments between separators.

## Main definitions

* `Segments.cut` — the segments of a text
-/

namespace KeyCustody.Segments

/-- Cuts a text at every separator. There is always a first segment. -/
def cut (separator : Char) : List Char → List (List Char)
  | [] => [[]]
  | c :: rest =>
    if c = separator then [] :: cut separator rest
    else
      match cut separator rest with
      | [] => [[c]]
      | s :: later => (c :: s) :: later

theorem cut_ne_nil (separator : Char) (s : List Char) : cut separator s ≠ [] := by
  cases s with
  | nil => simp [cut]
  | cons c rest =>
    simp only [cut]
    split
    · simp
    · split <;> simp

end KeyCustody.Segments
