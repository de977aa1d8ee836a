import KeyCustody.Command.Program
import KeyCustody.Hash.Sha256
import KeyCustody.Rsa.Padding

/-!
# Entry point

The host here is the system: its files, its standard output and its source of random octets.
There are no services behind it.

## Main definitions

* `SystemHost.draw`, `SystemHost.environment` — random octets, and the environment
* `main` — a run of the program
-/

namespace KeyCustody.SystemHost

/-- The fault that an error of the system is. -/
def faultOf : IO.Error → IoFault
  | .noFileOrDirectory _ _ _ => .notFound
  | .inappropriateType _ _ _ => .isDirectory
  | error => .reported (toString error)

/-- A service that is not there. -/
def absent : Service := ⟨.error "no such service", fun _ => .error "no such service", none⟩

instance : Host IO where
  isPresent path := do
    try (← IO.FS.realPath path).pathExists catch _ => pure false
  read path := do
    try
      let content ← IO.FS.readBinFile path
      pure (.ok content.data.toList)
    catch error => pure (.error (faultOf error))
  write path content := do
    try
      IO.FS.writeBinFile path ⟨content.toArray⟩
      pure (.ok ())
    catch error => pure (.error (faultOf error))
  print text := do (← IO.getStdout).putStr text
  adopt r := pure r.outcome
  converse dialogue := pure (dialogue.run fun _ => absent).2

/-- A source of random octets that spreads a seed over as many as are asked for. -/
def draw (seed : Octets) : Entropy := fun n => Rsa.mask Sha256.hash Digest.sha256.size seed n

/-- A name and a text from one entry of the environment. -/
def variableOf (entry : List Char) : String × String :=
  let (name, value) := splitEquals entry
  (String.ofList name, String.ofList (value.getD []))

/-- The variables of the environment, which the system gives in one block with a zero after each,
or none where it does not. -/
def environment : IO (List (String × String)) := do
  try
    let block ← IO.FS.readFile "/proc/self/environ"
    pure ((Segments.cut (Char.ofNat 0) block.toList).map variableOf)
  catch _ => pure []

end KeyCustody.SystemHost

open KeyCustody

/-- A run of the program. -/
def main (arguments : List String) : IO UInt32 := do
  let octets := (← IO.getRandomBytes 84).data.toList
  let secrets : PackageSecrets := ⟨octets.take 32, (octets.drop 32).take 20⟩
  let ending ← Program.run (SystemHost.draw (octets.drop 52)) secrets (← SystemHost.environment)
    arguments
  if let some line := ending.complaint then IO.eprintln line
  pure (UInt32.ofNat ending.status)
