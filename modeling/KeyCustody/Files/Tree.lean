import KeyCustody.Files.Path
import KeyCustody.KeyError

/-!
# File trees

A file tree holds directories and files below a root. A path is followed from the root, one
segment after another, and every segment but the last has to lead to a directory. A write needs
the directory to exist and changes the content of one file.

Nothing is known above the root, so a path that leads there leads nowhere.

## Main definitions

* `FileTree` — entries by place, where a place is a list of names
* `FileTree.locate` — the place that a path leads to
* `FileTree.isPresent`, `FileTree.read`, `FileTree.write` — the operations
* `FileTree.changes` — what files are new or different in another tree
-/

namespace KeyCustody

/-- What stands at a place of a tree. -/
inductive FileTree.Entry
  | directory
  | file (content : Octets)
deriving DecidableEq, Repr

/-- The entries below the root, by place. A later entry for a place is hidden by an earlier one. -/
structure FileTree where
  entries : List (List String × FileTree.Entry)
deriving DecidableEq, Repr

namespace FileTree

/-- The tree of a root without entries. -/
def empty : FileTree := ⟨[]⟩

/-- What stands at a place. -/
def entry? (t : FileTree) (place : List String) : Option Entry :=
  if place = [] then some .directory else t.entries.lookup place

/-- Puts an entry in a place, instead of the one that is there. -/
def setEntry (place : List String) (e : Entry) :
    List (List String × Entry) → List (List String × Entry)
  | [] => [(place, e)]
  | (p, f) :: rest => if p = place then (place, e) :: rest else (p, f) :: setEntry place e rest

/-- Puts an entry in a place. -/
def put (t : FileTree) (place : List String) (e : Entry) : FileTree :=
  ⟨setEntry place e t.entries⟩

/-! ## Following paths -/

/-- The longest name, in octets. -/
def nameLimit : Nat := 255

/-- The first length of a path, in octets, that is too long. -/
def pathLimit : Nat := 4096

/-- The place that one more segment leads to from a place. -/
def step (t : FileTree) (place : List String) (segment : String) : Except IoFault (List String) :=
  match t.entry? place with
  | none => .error .notFound
  | some (.file _) => .error .notDirectory
  | some .directory =>
    if segment = "" ∨ segment = "." then .ok place
    else if segment = ".." then if place = [] then .error .notFound else .ok place.dropLast
    else if nameLimit < segment.utf8ByteSize then .error .nameTooLong
    else .ok (place ++ [segment])

/-- The place that a path leads to, whether anything stands there or not. -/
def locate (t : FileTree) (path : String) : Except IoFault (List String) :=
  if path = "" ∨ path.toList.head? = some '/' then .error .notFound
  else if path.toList.any fun c => c.toNat = 0 then .error .invalidName
  else if pathLimit ≤ path.utf8ByteSize then .error .nameTooLong
  else (Path.segments path).foldlM t.step []

/-! ## Operations -/

/-- Whether a path leads to a file or a directory. -/
def isPresent (t : FileTree) (path : String) : Bool :=
  match t.locate path with
  | .ok place => (t.entry? place).isSome
  | .error _ => false

/-- The content of a file. -/
def read (t : FileTree) (path : String) : Except IoFault Octets := do
  match t.entry? (← t.locate path) with
  | some (.file content) => .ok content
  | some .directory => .error .isDirectory
  | none => .error .notFound

/-- The tree in which a file has the given content, new or not. -/
def write (t : FileTree) (path : String) (content : Octets) : Except IoFault FileTree := do
  let place ← t.locate path
  if t.entry? place = some .directory then .error .isDirectory
  else .ok (t.put place (.file content))

/-! ## Whole trees -/

/-- Puts directories at every place on the way to a place. -/
def putParents (t : FileTree) (place : List String) : FileTree :=
  (List.range (place.length - 1)).foldl (fun t n => t.put (place.take (n + 1)) .directory) t

/-- The tree that holds the given entries by path, and the directories on the way to them. -/
def ofList (l : List (String × Entry)) : FileTree :=
  l.foldl (fun t e =>
    let place := Path.segments e.1
    (t.putParents place).put place e.2) empty

/-- The files, by path. -/
def files (t : FileTree) : List (String × Octets) :=
  t.entries.filterMap fun
    | (place, .file content) => some ("/".intercalate place, content)
    | (_, .directory) => none

/-- The files of a later tree that are new or have another content. -/
def changes (t later : FileTree) : List (String × Octets) :=
  later.files.filter fun f => !t.files.contains f

end FileTree

end KeyCustody
