import KeyCustody.Command.Sign
import KeyCustody.Command.Wrap

/-!
# Command-line arguments

A command line names a subcommand, with flags before and after it. A flag has a long name behind
two hyphens or a letter behind one. Its value is the next argument, or stands in the same one
after an equals sign or directly after the letter; a next argument that begins with a hyphen is
no value unless it is a hyphen alone. No flag may be given twice. The flag for the settings file
may stand on either side of the subcommand, and a variable of the environment stands in for it.

## Main definitions

* `FlagKind`, `Flag` — the flags
* `readFlags` — reading flags up to a subcommand or the end
* `Invocation`, `Invocation.parse` — what a command line asks for
-/

namespace KeyCustody

/-! ## Flags -/

/-- What a flag is followed by. -/
inductive FlagKind
  /-- A path, which is not empty. -/
  | path
  | text
  /-- A whole number of 64 bits. -/
  | number
  /-- Nothing: the flag stands for itself. -/
  | none
  /-- Nothing: the version is asked for, and what follows is not read. -/
  | version
  /-- Nothing: help is asked for, and what follows is not read. -/
  | help
deriving DecidableEq, Repr

/-- A flag: its long name, its letter if it has one, and what follows it. -/
structure Flag where
  name : String
  letter : Option Char
  kind : FlagKind
deriving DecidableEq, Repr

/-- The values of flags, by long name. -/
abbrev FlagValues := List (String × String)

/-- A whole number of 64 bits, which may have a plus sign. -/
def saltLength? (s : String) : Option Nat := do
  let digits := match s.toList with
    | '+' :: rest => rest
    | l => l
  let n ← Reader.natural? 10 digits
  guard (n < 0x10000000000000000)
  some n

/-- Whether a text is a value for a flag. -/
def FlagKind.accepts (kind : FlagKind) (value : String) : Bool :=
  match kind with
  | path => value != ""
  | text => true
  | number => (saltLength? value).isSome
  | none | version | help => false

/-- Whether an argument can only be a flag, or the end of the flags. -/
def looksLikeFlag (argument : String) : Bool :=
  match argument.toList with
  | '-' :: _ :: _ => true
  | _ => false

/-- How far flags have been read. -/
inductive FlagReading
  /-- All arguments are flags. -/
  | ended (values : FlagValues)
  /-- An argument is none, and the rest is not read. -/
  | stopped (values : FlagValues) (argument : String) (rest : List String)
  | version
  | help
  | refused
deriving DecidableEq, Repr

/-- Splits a text at the first equals sign. -/
def splitEquals (s : List Char) : List Char × Option (List Char) :=
  match s.dropWhile (· ≠ '=') with
  | [] => (s, none)
  | _ :: value => (s.takeWhile (· ≠ '='), some value)

/-- The flag that an argument begins with, and the value in the same argument, if there is one.
Nothing is left of a letter's argument where the value has to be the next one. -/
def flagOf? (flags : List Flag) (argument : String) : Option (Flag × Option String) :=
  match argument.toList with
  | '-' :: '-' :: rest =>
    let (name, value) := splitEquals rest
    (flags.find? fun f => f.name.toList = name).map (·, value.map String.ofList)
  | '-' :: letter :: rest =>
    (flags.find? fun f => f.letter = some letter).map fun f =>
      (f, match rest with
        | [] => none
        | '=' :: value => some (String.ofList value)
        | value => some (String.ofList value))
  | _ => none

/-- Keeps a value of a flag. -/
def keepValue (values : FlagValues) (flag : Flag) (value : String) : Option FlagValues :=
  if (values.lookup flag.name).isSome ∨ !flag.kind.accepts value then none
  else some ((flag.name, value) :: values)

/-- Reads flags up to the first argument that is none. Two hyphens end the flags, and nothing may
follow them. -/
def readFlags (flags : List Flag) (values : FlagValues) : List String → FlagReading
  | [] => .ended values
  | ["--"] => .ended values
  | "--" :: _ => .refused
  | argument :: rest =>
    if looksLikeFlag argument then
      match flagOf? flags argument with
      | none => .refused
      | some (flag, attached) =>
        match flag.kind, attached, rest with
        | .version, none, _ => .version
        | .version, some _, _ => if argument.toList.take 2 = ['-', '-'] then .refused else .version
        | .help, none, _ => .help
        | .help, some _, _ => if argument.toList.take 2 = ['-', '-'] then .refused else .help
        | .none, none, rest =>
          if (values.lookup flag.name).isSome then .refused
          else readFlags flags ((flag.name, "") :: values) rest
        | .none, some _, _ => .refused
        | _, some value, rest =>
          match keepValue values flag value with
          | some values => readFlags flags values rest
          | none => .refused
        | _, none, [] => .refused
        | _, none, value :: rest =>
          if looksLikeFlag value then .refused
          else
            match keepValue values flag value with
            | some values => readFlags flags values rest
            | none => .refused
    else .stopped values argument rest

/-! ## Subcommands -/

/-- The flag for the settings file. -/
def configFlag : Flag := ⟨"config", some 'c', .path⟩

/-- The flag that asks for help. -/
def helpFlag : Flag := ⟨"help", some 'h', .help⟩

/-- The flags before a subcommand. -/
def programFlags : List Flag := [configFlag, helpFlag, ⟨"version", some 'V', .version⟩]

/-- The flags of the signing subcommand. -/
def signFlags : List Flag := [
  ⟨"input", some 'i', .path⟩, ⟨"output", some 'o', .path⟩, ⟨"key", some 'k', .path⟩,
  ⟨"kms-type", none, .text⟩, ⟨"key-alias", none, .text⟩, ⟨"algorithm", some 'a', .text⟩,
  ⟨"pss-salt-len", none, .number⟩, configFlag, helpFlag]

/-- The flags of the wrapping subcommand. -/
def wrapFlags : List Flag := [
  ⟨"key", some 'k', .path⟩, ⟨"wrapping-key", some 'w', .path⟩, ⟨"output", some 'o', .path⟩,
  ⟨"base64", none, .none⟩, configFlag, helpFlag]

/-- The flags of the subcommand that shows a key. -/
def infoFlags : List Flag := [⟨"key", some 'k', .path⟩, configFlag, helpFlag]

/-- A subcommand and what its flags say. -/
inductive Request
  | sign (flags : SignFlags)
  | wrap (flags : WrapFlags)
  | info (path : String)
deriving DecidableEq, Repr

namespace Request

/-- The flags of a subcommand. -/
def flagsOf? (name : String) : Option (List Flag) :=
  if name = "sign" then some signFlags
  else if name = "wrap" then some wrapFlags
  else if name = "info" then some infoFlags
  else none

/-- What the values of the flags of a subcommand ask for. A private key and a remote one cannot
both be named. -/
def ofValues? (name : String) (values : FlagValues) : Option Request :=
  if name = "sign" then do
    let flags : SignFlags := {
      input := ← values.lookup "input"
      output := values.lookup "output"
      key := values.lookup "key"
      kmsType := values.lookup "kms-type"
      keyAlias := values.lookup "key-alias"
      algorithm := values.lookup "algorithm"
      saltLength := values.lookup "pss-salt-len" >>= saltLength? }
    guard (flags.key.isNone ∨ flags.kmsType.isNone ∧ flags.keyAlias.isNone)
    some (.sign flags)
  else if name = "wrap" then do
    some (.wrap {
      key := ← values.lookup "key"
      wrappingKey := ← values.lookup "wrapping-key"
      output := values.lookup "output"
      base64 := (values.lookup "base64").isSome })
  else if name = "info" then (values.lookup "key").map .info
  else none

end Request

/-! ## Whole command lines -/

/-- What a command line asks for. -/
inductive Invocation
  | version
  | help
  | request (config : Option String) (request : Request)
deriving DecidableEq, Repr

namespace Invocation

/-- The variable of the environment that stands in for the flag for the settings file. -/
def configVariable : String := "KMSIGN_CONFIG"

/-- The path of the settings file. The flag after the subcommand goes before the one in front of
it, and both go before the variable. Where a flag is missing the variable is looked at, and then
its path may not be empty. -/
def config? (before after fallback : Option String) : Option (Option String) :=
  if fallback = some "" ∧ (before.isNone ∨ after.isNone) then none
  else some ((after.or before).or fallback)

/-- What a command line asks for, without the name of the program; the value of the variable for
the settings file is given. -/
def parse (fallback : Option String) (arguments : List String) : Option Invocation :=
  match readFlags programFlags [] arguments with
  | .version => some .version
  | .help => some .help
  | .ended _ | .refused => none
  | .stopped before name rest =>
    if name = "help" then some .help
    else
      match Request.flagsOf? name with
      | none => none
      | some flags =>
        match readFlags flags [] rest with
        | .help => some .help
        | .ended after => do
          let request ← Request.ofValues? name after
          let config ← config? (before.lookup "config") (after.lookup "config") fallback
          some (.request config request)
        | _ => none

end Invocation

end KeyCustody
