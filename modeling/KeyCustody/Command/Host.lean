import KeyCustody.Command.Failure
import KeyCustody.Engine.Registry
import KeyCustody.Files.Tree

/-!
# What commands ask of their surroundings

Commands look for files, read and write them, print text, and sign through backends. They are
written over any host that can do these things. One host keeps everything in memory: a file tree,
the printed text, and what happened with services; what a command does to its surroundings is
what it does to that host.

## Main definitions

* `Host` — the operations of a host
* `Host.require`, `Host.readFile`, `Host.writeFile`, `Host.loadKey` — operations that may fail
* `Scene`, `Rehearsal` — the host in memory
-/

namespace KeyCustody

/-- The operations of a host. -/
class Host (m : Type → Type) where
  /-- Whether a path leads to a file or a directory. -/
  isPresent : String → m Bool
  read : String → m (Except IoFault Octets)
  write : String → Octets → m (Except IoFault Unit)
  print : String → m Unit
  /-- Takes note of a resolution. -/
  adopt : Registry.Resolution → m (Except KeyError Signer)
  /-- Has a dialogue with the services. -/
  converse : Dialogue (Except KeyError Octets) → m (Except KeyError Octets)

/-- What a command does, and how it fails. -/
abbrev CommandM (m : Type → Type) := ExceptT CommandError m

namespace Host

variable {m : Type → Type} [Monad m] [Host m]

/-- Prints a line. -/
def say (line : String) : CommandM m Unit := ExceptT.lift (print (line ++ "\n"))

/-- Goes on only if a path leads somewhere. -/
def require (path : String) : CommandM m Unit := do
  if ← ExceptT.lift (isPresent path) then pure () else throw (.fileNotFound path)

/-- The content of a file. -/
def readFile (path : String) : CommandM m Octets := do
  match ← ExceptT.lift (read path) with
  | .ok content => pure content
  | .error fault => throw (.io fault)

/-- Writes a file. -/
def writeFile (path : String) (content : Octets) : CommandM m Unit := do
  match ← ExceptT.lift (write path content) with
  | .ok () => pure ()
  | .error fault => throw (.io fault)

/-- The private key that a file holds, and the size of the file. -/
def loadKeyFile (path : String) : m (Except KeyError (PrivateKey × Nat)) := do
  match ← read path with
  | .ok content => pure ((PrivateKey.ofFile content).map (·, content.length))
  | .error fault => pure (.error (.io fault))

/-- The private key that a file holds, and the size of the file. -/
def loadKey (path : String) : CommandM m (PrivateKey × Nat) := do
  match ← ExceptT.lift (loadKeyFile path) with
  | .ok key => pure key
  | .error e => throw (.key e)

/-- The result of an operation on keys. -/
def orFail {α : Type} (result : Except KeyError α) : CommandM m α :=
  match result with
  | .ok a => pure a
  | .error e => throw (.key e)

end Host

/-! ## The host in memory -/

/-- The surroundings of a command that are kept in memory. -/
structure Scene where
  files : FileTree
  printed : String
  contacts : List Contact
  constructions : List Registry.Construction
  services : ConnectorId → Service

/-- The surroundings of a command with nothing done yet. -/
def Scene.start (files : FileTree) (services : ConnectorId → Service) : Scene :=
  ⟨files, "", [], [], services⟩

/-- Doing something in the surroundings that are kept in memory. -/
abbrev Rehearsal := StateM Scene

instance : Host Rehearsal where
  isPresent path := fun s => (s.files.isPresent path, s)
  read path := fun s => (s.files.read path, s)
  write path content := fun s =>
    match s.files.write path content with
    | .ok files => (.ok (), { s with files })
    | .error fault => (.error fault, s)
  print text := fun s => ((), { s with printed := s.printed ++ text })
  adopt r := fun s =>
    (r.outcome, { s with constructions := s.constructions ++ r.construction.toList })
  converse dialogue := fun s =>
    let (contacts, result) := dialogue.run s.services
    (result, { s with contacts := s.contacts ++ contacts })

end KeyCustody
