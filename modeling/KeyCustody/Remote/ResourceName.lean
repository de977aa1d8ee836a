import KeyCustody.KeyError
import KeyCustody.Text.Segments

/-!
# Resource names of Cloud KMS

A resource name is a path that alternates between names of collections and identifiers in them.
A key ring has three such pairs, and a version of a key has five. An identifier may be any text
that is not empty and holds no slash.

## Main definitions

* `KeyRingName`, `KeyVersionName` — the names
* `KeyRingName.text`, `KeyVersionName.text` — the path
* `KeyRingName.parse`, `KeyVersionName.parse` — reading a path
-/

namespace KeyCustody

namespace ResourceName

/-- Reads pairs of a collection and an identifier, the next collection being at the given position
counted from one. -/
def identifiers : Nat → List String → List (List Char) → Except AliasFault (List String)
  | position, name :: names, collection :: id :: rest =>
    if collection ≠ name.toList then .error (.collection name position)
    else if id = [] then .error (.emptyId name)
    else (identifiers (position + 2) names rest).map (String.ofList id :: ·)
  | _, _, _ => .ok []

/-- The identifiers in a path through the given collections. -/
def parse (collections : List String) (path : String) : Except KeyError (List String) :=
  let parts := Segments.cut '/' path.toList
  if parts.length = 2 * collections.length then
    (identifiers 1 collections parts).mapError (.invalidKeyAlias path)
  else
    .error (.invalidKeyAlias path (.segmentCount (2 * collections.length) parts.length))

/-- The collections that lead to a key ring. -/
def keyRingCollections : List String := ["projects", "locations", "keyRings"]

/-- The collections that lead to a version of a key. -/
def keyVersionCollections : List String :=
  keyRingCollections ++ ["cryptoKeys", "cryptoKeyVersions"]

end ResourceName

/-- The name of a key ring. -/
structure KeyRingName where
  project : String
  location : String
  keyRing : String
deriving DecidableEq, Repr

/-- The name of a version of a key. -/
structure KeyVersionName where
  project : String
  location : String
  keyRing : String
  cryptoKey : String
  version : String
deriving DecidableEq, Repr

namespace KeyRingName

/-- The path. -/
def text (n : KeyRingName) : String :=
  "projects/" ++ n.project ++ "/locations/" ++ n.location ++ "/keyRings/" ++ n.keyRing

/-- Reads a path. -/
def parse (path : String) : Except KeyError KeyRingName := do
  match ← ResourceName.parse ResourceName.keyRingCollections path with
  | [project, location, keyRing] => return ⟨project, location, keyRing⟩
  | ids => throw (.invalidKeyAlias path (.segmentCount 6 (2 * ids.length)))

/-- The name of a version of a key in the ring. -/
def keyVersion (n : KeyRingName) (cryptoKey version : String) : KeyVersionName :=
  ⟨n.project, n.location, n.keyRing, cryptoKey, version⟩

end KeyRingName

namespace KeyVersionName

/-- The ring that the key is in. -/
def ring (n : KeyVersionName) : KeyRingName := ⟨n.project, n.location, n.keyRing⟩

/-- The path. -/
def text (n : KeyVersionName) : String :=
  n.ring.text ++ "/cryptoKeys/" ++ n.cryptoKey ++ "/cryptoKeyVersions/" ++ n.version

/-- Reads a path. -/
def parse (path : String) : Except KeyError KeyVersionName := do
  match ← ResourceName.parse ResourceName.keyVersionCollections path with
  | [project, location, keyRing, cryptoKey, version] =>
    return ⟨project, location, keyRing, cryptoKey, version⟩
  | ids => throw (.invalidKeyAlias path (.segmentCount 10 (2 * ids.length)))

end KeyVersionName

end KeyCustody
