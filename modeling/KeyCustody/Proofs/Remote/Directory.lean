import KeyCustody.Proofs.Remote.Wire
import KeyCustody.Proofs.Session

/-!
# Keys that are known to exist

Before a key of Cloud KMS is configured, the service is asked whether it exists. The alias is read as
the name of a version of a key and written again twice on the way, once for the look-up and once for
the signer, and as names are read exactly as they are written, both come back to the alias. So the
key that was looked up is the one that signatures are asked for, with whatever algorithm and
parameters the signer is made, and however long after.

## Main definitions

* `Service.answer`, `Service.lookups` — the answer to a look-up, and the contacts that it takes
* `GcpDirectory.verdict` — what the answer comes to
* `Dialogue.requiring` — the dialogue of one look-up with a client of its own

## Main results

* `GcpDirectory.requireKey_of_isWellFormed`, `GcpDirectory.requireKey_of_not_path` — requiring a key
  is one such dialogue, or none at all
* `GcpDirectory.run_requiring` — its contacts, and its result
* `GcpDirectory.requests_of_required` — how a key is required, and what is asked for afterwards
-/

namespace KeyCustody

/-! ## Looking up -/

namespace Service

/-- What a client answers when it is asked for a key: what its service answers, and where it has no
look-up of its own, that it has none. -/
def answer (s : Service) (keyId : String) : Except String Bool :=
  match s.lookup with
  | some look => look keyId
  | none => .error (unsupportedLookup keyId)

/-- The contacts with a service that asking a client for a key takes: one, or none where the client
answers by itself. -/
def lookups (s : Service) (c : ConnectorId) (keyId : String) : List Contact :=
  match s.lookup with
  | some _ => [.lookedUp c keyId]
  | none => []

end Service

/-- What the answer to a look-up comes to. -/
def GcpDirectory.verdict (keyAlias : String) : Except String Bool → Except KeyError KeySource
  | .ok true => .ok (.remote .gcp keyAlias)
  | .ok false => .error (.keyNotFound "GCP" keyAlias)
  | .error text => .error (.other ("lookup of " ++ keyAlias ++ " failed: " ++ text))

/-- The dialogue of one look-up with a client of its own. -/
def Dialogue.requiring (c : ConnectorId) (keyAlias : String) :
    Dialogue (Except KeyError KeySource) :=
  .withClient c (fun text => .error (.backendInit "GCP" (.reported text))) fun finish =>
    .lookup c keyAlias fun answer => finish (GcpDirectory.verdict keyAlias answer)

namespace GcpDirectory

variable {c : ConnectorId} {keyAlias : String} {services : ConnectorId → Service}

/-- A key of a well-formed name is looked up under the name as it is written. -/
theorem requireKey_of_isWellFormed {n : KeyVersionName} (h : n.IsWellFormed) (c : ConnectorId) :
    requireKey .gcp n.text (keyExists c n.text) = .requiring c n.text := by
  have hparse : KeyVersionName.parse n.text = .ok n := KeyVersionName.parse_eq_ok_iff.mpr ⟨h, rfl⟩
  -- What the look-up returns is judged twice, as an answer and as a key that is required.
  have hverdict : ∀ answer : Except String Bool,
      requiredKey .gcp n.text (answer.mapError fun text =>
        .other ("lookup of " ++ n.text ++ " failed: " ++ text)) = verdict n.text answer := by
    intro answer
    cases answer with
    | error text => rfl
    | ok present => cases present <;> rfl
  unfold requireKey keyExists
  rw [hparse]
  apply congrArg (Dialogue.connect c)
  funext opening
  cases opening with
  | error text => rfl
  | ok _ =>
    apply congrArg (Dialogue.lookup c n.text)
    funext answer
    exact congrArg (fun result => Dialogue.release c (.done result)) (hverdict answer)

/-- An alias that is no name is refused without a dialogue. -/
theorem requireKey_of_not_path (h : ¬ ∃ n : KeyVersionName, n.IsWellFormed ∧ keyAlias = n.text)
    (c : ConnectorId) : ∃ fault,
      requireKey .gcp keyAlias (keyExists c keyAlias) =
        .done (.error (.invalidKeyAlias keyAlias fault)) := by
  cases hparse : KeyVersionName.parse keyAlias with
  | ok n => exact absurd ⟨n, KeyVersionName.parse_eq_ok_iff.mp hparse⟩ h
  | error e =>
    obtain ⟨fault, rfl⟩ := KeyVersionName.parse_eq_error hparse
    refine ⟨fault, ?_⟩
    unfold requireKey keyExists
    rw [hparse]
    rfl

/-- One client is opened, asked for the key, and let go of. -/
theorem run_requiring (c : ConnectorId) (keyAlias : String) (services : ConnectorId → Service) :
    (Dialogue.requiring c keyAlias).run services =
      match (services c).connect with
      | .error text => ([.connected c], .error (.backendInit "GCP" (.reported text)))
      | .ok () => (.connected c :: (services c).lookups c keyAlias ++ [.released c],
          verdict keyAlias ((services c).answer keyAlias)) := by
  unfold Dialogue.requiring Dialogue.withClient Service.lookups Service.answer
  rw [Dialogue.run]
  cases (services c).connect with
  | error text => rfl
  | ok _ =>
    dsimp only
    rw [Dialogue.run]
    cases (services c).lookup <;> rfl

/-- Each way that a look-up can end has a result of its own. -/
theorem result_requiring (c : ConnectorId) (keyAlias : String)
    (services : ConnectorId → Service) :
    let result := ((Dialogue.requiring c keyAlias).run services).2
    let opening := (services c).connect
    let answer := (services c).answer keyAlias
    (∀ source, result = .ok source ↔
      opening = .ok () ∧ answer = .ok true ∧ source = .remote .gcp keyAlias) ∧
    (∀ backend missing, result = .error (.keyNotFound backend missing) ↔
      opening = .ok () ∧ answer = .ok false ∧ backend = "GCP" ∧ missing = keyAlias) ∧
    (∀ backend cause, result = .error (.backendInit backend cause) ↔
      ∃ text, opening = .error text ∧ backend = "GCP" ∧ cause = .reported text) ∧
    ∀ other, result = .error (.other other) ↔
      opening = .ok () ∧ ∃ text, answer = .error text ∧
        other = "lookup of " ++ keyAlias ++ " failed: " ++ text := by
  intro result opening answer
  have hresult : result = match opening with
      | .error text => .error (.backendInit "GCP" (.reported text))
      | .ok () => verdict keyAlias answer := by
    simp only [result, run_requiring, opening, answer]
    cases (services c).connect <;> rfl
  -- From here on only what was opened and what was answered counts, not the services.
  clear_value result opening answer
  subst hresult
  cases opening with
  | error text => simp [eq_comm]
  | ok _ =>
    cases answer with
    | error text => simp [verdict, eq_comm]
    | ok present => cases present <;> simp [verdict, eq_comm]

end GcpDirectory

/-! ## Signing afterwards -/

/-- A signer that is kept in a session asks for what it sends, whatever has happened meanwhile. -/
theorem Session.contacts_of_sends {s : Session} {name : String} {signer : Signer}
    {services : ConnectorId → Service} {d : ConnectorId} {request : Octets → SignRequest}
    (hsends : signer.Sends d request) (hkept : s.signers.lookup name = some signer)
    {steps : List (Entropy × Step)} (hsteps : ∀ e ∈ steps, ¬ e.2.Keeps name) (draw : Entropy)
    (message : Octets) :
    let later := (s.run services steps).2
    (later.perform services draw (.sign name message)).1.contacts = later.contacts ++
      match (services d).connect with
      | .error _ => [.connected d]
      | .ok () => [.connected d, .requested d (request message), .released d] := by
  intro later
  have hlater : later.signers.lookup name = some signer := (lookup_run hsteps).trans hkept
  exact (perform_sign hlater message).1.trans
    (congrArg (later.contacts ++ ·) (hsends draw message services))

namespace GcpDirectory

/-- A key that was required is the key that signs. An alias that is no name of a version of a key is
refused without any contact. Otherwise one client is opened and asked for exactly that alias, once,
and it is let go of again whatever it answers. The result is the remote key if the answer is yes,
and a failure of its own kind each if the answer is no, if no client could be opened, and if the
look-up failed. And once a key was required, it is resolved with every registry that has the
constructor of Cloud KMS, whatever the algorithm and the parameters, to a signer that asks for
signatures under the alias that was looked up; and so it does in a session after any steps that put
no other signer in its place. -/
theorem requests_of_required (c : ConnectorId) (keyAlias : String)
    (services : ConnectorId → Service) :
    let dialogue := requireKey .gcp keyAlias (keyExists c keyAlias)
    let contacts := (dialogue.run services).1
    let result := (dialogue.run services).2
    let opening := (services c).connect
    let answer := (services c).answer keyAlias
    ((¬ ∃ n : KeyVersionName, n.IsWellFormed ∧ keyAlias = n.text) →
      contacts = [] ∧ ∃ fault, result = .error (.invalidKeyAlias keyAlias fault)) ∧
    ((∃ n : KeyVersionName, n.IsWellFormed ∧ keyAlias = n.text) →
      dialogue = .requiring c keyAlias ∧
      (contacts = match opening with
        | .error _ => [.connected c]
        | .ok () => .connected c :: (services c).lookups c keyAlias ++ [.released c]) ∧
      (∀ source, result = .ok source ↔
        opening = .ok () ∧ answer = .ok true ∧ source = .remote .gcp keyAlias) ∧
      (∀ backend missing, result = .error (.keyNotFound backend missing) ↔
        opening = .ok () ∧ answer = .ok false ∧ backend = "GCP" ∧ missing = keyAlias) ∧
      (∀ backend cause, result = .error (.backendInit backend cause) ↔
        ∃ text, opening = .error text ∧ backend = "GCP" ∧ cause = .reported text) ∧
      ∀ other, result = .error (.other other) ↔ opening = .ok () ∧ ∃ text, answer = .error text ∧
        other = "lookup of " ++ keyAlias ++ " failed: " ++ text) ∧
    ∀ source, result = .ok source → ∀ (r : Registry) (d : ConnectorId),
      r.constructor? .gcp = some (.gcp d) → ∀ algorithm parameters, ∃ signer,
        (r.resolve source algorithm parameters).outcome = .ok signer ∧
        ∀ (s : Session) (name : String), s.signers.lookup name = some signer →
        ∀ (services : ConnectorId → Service) (steps : List (Entropy × Session.Step)),
          (∀ e ∈ steps, ¬ e.2.Keeps name) → ∀ draw message,
          let later := (s.run services steps).2
          (later.perform services draw (.sign name message)).1.contacts = later.contacts ++
            match (services d).connect with
            | .error _ => [.connected d]
            | .ok () => [.connected d, .requested d ⟨keyAlias, none, message⟩, .released d] := by
  intro dialogue contacts result opening answer
  by_cases hpath : ∃ n : KeyVersionName, n.IsWellFormed ∧ keyAlias = n.text
  · have hdialogue : dialogue = .requiring c keyAlias := by
      obtain ⟨n, hn, rfl⟩ := hpath
      exact requireKey_of_isWellFormed hn c
    obtain ⟨hok, hmissing, hunopened, hfailed⟩ := result_requiring c keyAlias services
    rw [← hdialogue] at hok hmissing hunopened hfailed
    refine ⟨fun h => absurd hpath h,
      fun _ => ⟨hdialogue, ?_, hok, hmissing, hunopened, hfailed⟩, ?_⟩
    · simp only [contacts, hdialogue, run_requiring, opening]
      cases (services c).connect <;> rfl
    · -- The signer reads the alias anew, and writes it as it was written for the look-up.
      intro source hsource r d hgcp algorithm parameters
      obtain ⟨-, -, rfl⟩ := (hok source).mp hsource
      obtain ⟨n, hn, rfl⟩ := hpath
      refine ⟨_, (Registry.resolve_gcp_eq_ok_iff hgcp).mpr ⟨n, hn, rfl, rfl⟩, ?_⟩
      intro s name hkept services steps hsteps draw message
      exact Session.contacts_of_sends (ServiceSigner.sends_toSigner _) hkept hsteps draw message
  · obtain ⟨fault, hdialogue⟩ := requireKey_of_not_path hpath c
    have hrun : dialogue.run services = ([], .error (.invalidKeyAlias keyAlias fault)) := by
      simp only [dialogue, hdialogue, Dialogue.run]
    have hresult : result = .error (.invalidKeyAlias keyAlias fault) := congrArg Prod.snd hrun
    refine ⟨fun _ => ⟨congrArg Prod.fst hrun, fault, hresult⟩, fun h => absurd h hpath,
      fun source hsource => ?_⟩
    rw [hresult] at hsource
    cases hsource

/-- A version that exists, asked for through one connector and signed with through another, and an
alias that is no name. -/
theorem requests_of_required_found :
    let path := "projects/p/locations/l/keyRings/r/cryptoKeys/k/cryptoKeyVersions/1"
    let services : ConnectorId → Service :=
      fun _ => ⟨.ok (), fun _ => .error "throttled", some fun id => .ok (id == path)⟩
    let run := (requireKey .gcp path (keyExists 1 path)).run services
    let r := (Registry.empty.registerGcp 2).1
    let draw : Entropy := (List.replicate · 0)
    run = ([.connected 1, .lookedUp 1 path, .released 1], .ok (.remote .gcp path)) ∧
      (∃ signer, (r.resolve (.remote .gcp path) "any" none).outcome = .ok signer ∧
        ((Session.start.keep "key" signer).perform services draw (.sign "key" [1])).1.contacts =
          [.connected 2, .requested 2 ⟨path, none, [1]⟩, .released 2]) ∧
      ∃ fault, (requireKey .gcp "k" (keyExists 1 "k")).run services =
        ([], .error (.invalidKeyAlias "k" fault)) := by
  intro path services run r draw
  have hpath : ∃ n : KeyVersionName, n.IsWellFormed ∧ path = n.text :=
    ⟨⟨"p", "l", "r", "k", "1"⟩, by decide, by decide⟩
  have hbare : KeyVersionName.parse "k" = .error (.invalidKeyAlias "k" (.segmentCount 10 1)) := by
    decide
  have hnoPath : ¬ ∃ n : KeyVersionName, n.IsWellFormed ∧ "k" = n.text := by
    rintro ⟨n, hn⟩
    rw [KeyVersionName.parse_eq_ok_iff.mpr hn] at hbare
    cases hbare
  have hanswer : (services 1).answer path = .ok true := by simp [Service.answer, services]
  obtain ⟨-, hrun, hsigner⟩ := requests_of_required 1 path services
  obtain ⟨-, hcontacts, hok, -⟩ := hrun hpath
  have hrequired : run.2 = .ok (.remote .gcp path) := (hok _).mpr ⟨rfl, hanswer, rfl⟩
  obtain ⟨signer, hresolved, hsends⟩ := hsigner _ hrequired r 2 rfl "any" none
  have hsigned := hsends (Session.start.keep "key" signer) "key" (Session.lookup_keep _ _ _)
    services [] (List.forall_mem_nil _) draw [1]
  obtain ⟨hrefused, -, -⟩ := requests_of_required 1 "k" services
  obtain ⟨hnothing, fault, hfault⟩ := hrefused hnoPath
  exact ⟨Prod.ext hcontacts hrequired, ⟨signer, hresolved, hsigned⟩, fault,
    Prod.ext hnothing hfault⟩

end GcpDirectory

end KeyCustody
