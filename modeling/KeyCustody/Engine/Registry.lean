import KeyCustody.Engine.InProcess
import KeyCustody.Remote.Aws
import KeyCustody.Remote.Gcp

/-!
# The registry of backends

Remote backends are found through a registry that holds one constructor for each type of
service, the one registered last. Resolving a key in memory never looks at the registry, and
resolving a remote key calls exactly the constructor of its type, once, with the alias and the
algorithm as they were given.

## Main definitions

* `Constructor` — how a backend makes a signer for an alias and an algorithm
* `Registry`, `Registry.register`, `Registry.constructor?` — constructors by type, in ascending
  order of the types
* `Registry.resolve` — the signer for a key, and the constructor call that made it
-/

namespace KeyCustody

/-- A way to make signers for the aliases of a service. -/
structure Constructor where
  /-- Whether the backend is a caller's own and none of this library's. -/
  isCustom : Bool
  create : String → String → Except KeyError Signer

namespace Constructor

/-- The constructor of AWS KMS over a connector. -/
def aws (connector : ConnectorId) : Constructor :=
  ⟨false, fun keyAlias algorithm => (AwsSigner.create keyAlias algorithm connector).map (·.toSigner)⟩

/-- The constructor of Cloud KMS over a connector. -/
def gcp (connector : ConnectorId) : Constructor :=
  ⟨false, fun keyAlias algorithm => (GcpSigner.create keyAlias algorithm connector).map (·.toSigner)⟩

end Constructor

/-- Constructors by type, in ascending order of the types. -/
structure Registry where
  entries : List (KmsType × Constructor)

namespace Registry

/-- The registry without constructors. -/
def empty : Registry := ⟨[]⟩

/-- Puts a constructor in its place, instead of one of the same type if there is one. -/
def insert (kmsType : KmsType) (constructor : Constructor) :
    List (KmsType × Constructor) → List (KmsType × Constructor)
  | [] => [(kmsType, constructor)]
  | (t, c) :: rest =>
    match kmsType.compare t with
    | .lt => (kmsType, constructor) :: (t, c) :: rest
    | .eq => (kmsType, constructor) :: rest
    | .gt => (t, c) :: insert kmsType constructor rest

/-- The constructor of a type. -/
def constructor? (r : Registry) (kmsType : KmsType) : Option Constructor :=
  (r.entries.find? fun e => e.1 == kmsType).map (·.2)

/-- Whether there is a constructor of a type. -/
def contains (r : Registry) (kmsType : KmsType) : Bool := (r.constructor? kmsType).isSome

/-- Registers a constructor, and tells whether it replaces another. -/
def register (r : Registry) (kmsType : KmsType) (constructor : Constructor) : Registry × Bool :=
  (⟨insert kmsType constructor r.entries⟩, r.contains kmsType)

/-- Registers AWS KMS over a connector. -/
def registerAws (r : Registry) (connector : ConnectorId) : Registry × Bool :=
  r.register .aws (.aws connector)

/-- Registers Cloud KMS over a connector. -/
def registerGcp (r : Registry) (connector : ConnectorId) : Registry × Bool :=
  r.register .gcp (.gcp connector)

/-- The types that are registered, in ascending order. -/
def kmsTypes (r : Registry) : List KmsType := r.entries.map (·.1)

/-- The description, which lists the types. -/
def text (r : Registry) : String :=
  Record.text "SignerEngineRegistry"
    [("kms_types", "[" ++ ", ".intercalate (r.kmsTypes.map KmsType.text) ++ "]")]

/-- A call of a constructor. -/
structure Construction where
  kmsType : KmsType
  «alias» : String
  algorithm : String
  /-- Whether the constructor is a caller's own. -/
  isCustom : Bool
deriving DecidableEq, Repr

/-- A signer or a failure, and the call of a constructor that led to it, if there was one. -/
structure Resolution where
  construction : Option Construction
  outcome : Except KeyError Signer

/-- The signer for a key. Parameters are for keys in memory and reach no constructor. -/
def resolve (r : Registry) (source : KeySource) (algorithm : String)
    (parameters : Option SignatureAlgorithm.Parameters) : Resolution :=
  match source with
  | .inMemory key =>
    ⟨none, (InProcessSigner.ofName key algorithm parameters).map (·.toSigner)⟩
  | .remote kmsType keyAlias =>
    match r.constructor? kmsType with
    | none => ⟨none, .error (.unsupportedBackend kmsType)⟩
    | some c => ⟨some ⟨kmsType, keyAlias, algorithm, c.isCustom⟩, c.create keyAlias algorithm⟩

end Registry

end KeyCustody
