import KeyCustody.Command.Arguments
import KeyCustody.Command.Info

/-!
# The program

A run of the program reads the command line, loads the settings, and carries out one subcommand.
It has no backends of its own. An error ends it after whatever has been printed before.

## Main definitions

* `loadSettings` — the settings of a file and an environment
* `Program.run`, `Program.Ending` — a run, and how it ends
-/

namespace KeyCustody

variable {m : Type → Type} [Monad m] [Host m]

open Host

/-- The settings of a file, if there is one, and an environment. A path that leads to a directory
gives no settings. -/
def loadSettings (config : Option String) (environment : List (String × String)) :
    CommandM m Settings := do
  let document ← match config with
    | none => pure none
    | some path =>
      require path
      match ← ExceptT.lift (read path) with
      | .ok content => pure (some content)
      | .error .isDirectory => pure none
      | .error fault => throw (.config (.unreadable fault))
  match Settings.ofLayers document environment with
  | .ok settings => pure settings
  | .error fault => throw (.config fault)

namespace Program

/-- What the program is called, and its version. -/
def versionLine : String := "kmsign 0.1.0"

/-- A short description of the command line. -/
def helpText : String :=
  "\n".intercalate [
    "Sign with local or cloud KMS keys, and wrap private keys for KMS import",
    "",
    "  kmsign [-c FILE] sign -i FILE [-o FILE] [-k FILE | --kms-type NAME --key-alias NAME]",
    "                        [-a NAME] [--pss-salt-len N]",
    "  kmsign [-c FILE] wrap -k FILE -w FILE [-o FILE] [--base64]",
    "  kmsign [-c FILE] info -k FILE",
    "  kmsign --version"]

/-- How a run ends. -/
inductive Ending
  | completed
  /-- The command line is not accepted. -/
  | refused
  | failed (error : CommandError)
deriving DecidableEq, Repr

/-- The exit status. -/
def Ending.status : Ending → Nat
  | completed => 0
  | failed _ => 1
  | refused => 2

/-- The line about the error that a run ends with, if it does. -/
def Ending.complaint : Ending → Option String
  | failed error => some ("✗ " ++ error.message)
  | _ => none

/-- Carries out a subcommand. -/
def perform (draw : Entropy) (secrets : PackageSecrets) (settings : Settings) :
    Request → CommandM m Unit
  | .sign flags => Command.sign draw .empty settings flags
  | .wrap flags => Command.wrap secrets flags
  | .info path => Command.info path

/-- A run with the given arguments in the given environment. -/
def run (draw : Entropy) (secrets : PackageSecrets) (environment : List (String × String))
    (arguments : List String) : m Ending := do
  match Invocation.parse (environment.lookup Invocation.configVariable) arguments with
  | none => pure .refused
  | some .version =>
    print (versionLine ++ "\n")
    pure .completed
  | some .help =>
    print (helpText ++ "\n")
    pure .completed
  | some (.request config request) =>
    let command : CommandM m Unit := do
      let settings ← loadSettings config environment
      perform draw secrets settings request
    match ← command.run with
    | .ok () => pure .completed
    | .error e => pure (.failed e)

end Program

end KeyCustody
