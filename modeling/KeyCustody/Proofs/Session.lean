import KeyCustody.Proofs.Engine.Registry
import KeyCustody.Session

/-!
# Registries and signers in a session

A registry decides which constructor is called when a key is resolved, and that is the one
registered last for its service. A signer that was resolved does not look at the registry again. So
later registrations change what is resolved after them, and nothing that was resolved before.

## Main definitions

* `Session.run` — what the steps of a run come to, and the session after them
* `Session.after` — the session after steps that draw from one source
* `Session.Step.Keeps` — the steps that may put another signer under a name

## Main results

* `Session.lookup_run`, `Session.lookup_after` — a kept signer stays
* `Session.perform_sign`, `Session.exists_draw_of_mem_run` — what signing comes to depends on the
  kept signer
* `Session.resolution_by_last_registration` — a registry after any operations, and signers after
  any registrations
-/

namespace KeyCustody.Session

variable {s : Session} {services : ConnectorId → Service} {draw : Entropy} {name : String}

/-- What the steps of a run come to, each of them with randomness of its own, and the session after
them. -/
def run (s : Session) (services : ConnectorId → Service) :
    List (Entropy × Step) → List (Step × Outcome) × Session
  | [] => ([], s)
  | (draw, step) :: steps =>
    let performed := s.perform services draw step
    let later := performed.1.run services steps
    ((step, performed.2) :: later.1, later.2)

/-- The session after a run of steps. -/
def after (s : Session) (services : ConnectorId → Service) (draw : Entropy) (steps : List Step) :
    Session :=
  steps.foldl (fun s step => (s.perform services draw step).1) s

/-- A step that may put another signer under a name. -/
def Step.Keeps (name : String) : Step → Prop
  | .resolve kept .. | .awsSigner kept .. | .gcpSigner kept .. => kept = name
  | _ => False

/-! ## Signers stay -/

theorem lookup_keep (s : Session) (name : String) (signer : Signer) :
    (s.keep name signer).signers.lookup name = some signer := by
  change List.lookup name ((name, signer) :: s.signers) = _
  rw [Association.lookup_cons, if_pos rfl]

theorem lookup_adopt {α : Type} {kept : String} (h : kept ≠ name) (made : Except KeyError α)
    (toSigner : α → Signer) (outcome : α → Outcome) :
    (s.adopt kept made toSigner outcome).1.signers.lookup name = s.signers.lookup name := by
  cases made with
  | error e => rfl
  | ok a =>
    change List.lookup name ((kept, toSigner a) :: s.signers) = _
    rw [Association.lookup_cons, if_neg h.symm]

/-- A step keeps the signers under all names but the one it is given. -/
theorem lookup_perform {step : Step} (h : ¬ step.Keeps name) :
    (s.perform services draw step).1.signers.lookup name = s.signers.lookup name := by
  cases step with
  | resolve kept source algorithm parameters =>
    cases source with
    | error e => rfl
    | ok source => exact lookup_adopt h _ _ _
  | awsSigner kept connector keyAlias algorithm => exact lookup_adopt h _ _ _
  | gcpSigner kept connector keyAlias algorithm => exact lookup_adopt h _ _ _
  | sign kept message =>
    simp only [perform]
    cases s.signers.lookup kept <;> rfl
  | registerAws | registerGcp | registerCustom | contains | kmsTypes | gcpExists | gcpRequire
  | require => rfl

/-- A signer stays under its name until another one is put there. -/
theorem lookup_run {steps : List (Entropy × Step)} (h : ∀ e ∈ steps, ¬ e.2.Keeps name) :
    (s.run services steps).2.signers.lookup name = s.signers.lookup name := by
  induction steps generalizing s with
  | nil => rfl
  | cons e steps ih =>
    obtain ⟨hstep, hsteps⟩ := List.forall_mem_cons.mp h
    exact (ih hsteps).trans (lookup_perform hstep)

theorem run_eq_after (s : Session) (services : ConnectorId → Service) (draw : Entropy)
    (steps : List Step) :
    (s.run services (steps.map (draw, ·))).2 = s.after services draw steps := by
  induction steps generalizing s with
  | nil => rfl
  | cons step steps ih => exact ih (s.perform services draw step).1

theorem lookup_after {steps : List Step} (h : ∀ step ∈ steps, ¬ step.Keeps name) :
    (s.after services draw steps).signers.lookup name = s.signers.lookup name := by
  rw [← run_eq_after]
  exact lookup_run (List.forall_mem_map.mpr h)

/-! ## Signing -/

/-- Signing is the dialogue of the kept signer, and nothing else in the session has a part in it. -/
theorem perform_sign {signer : Signer} (h : s.signers.lookup name = some signer)
    (message : Octets) :
    (s.perform services draw (.sign name message)).1.contacts =
        s.contacts ++ ((signer.sign draw message).run services).1 ∧
      (s.perform services draw (.sign name message)).2 =
        match ((signer.sign draw message).run services).2 with
        | .ok signature => .signed signature
        | .error e => .failed e := by
  rw [perform, h]
  dsimp only [converse]
  refine ⟨rfl, ?_⟩
  cases ((signer.sign draw message).run services).2 <;> rfl

/-- A registry after any run of operations, and signers after any registrations. A type is known if
it was registered in the run, registering it once more replaces its constructor, and the known types
are listed in strictly ascending order of their octets. Resolving a remote key calls the constructor
registered last for its type, with the alias and the algorithm as they are, and comes to what that
comes to; without one it calls nothing and fails. A key in memory calls nothing. And once a signer
is kept, signing with it has the same outcome and the same contacts after any steps that put no
other signer in its place, whatever the registry is by then. -/
theorem resolution_by_last_registration :
    (∀ ops : List Registry.Operation,
      let r := Registry.empty.after ops
      let entries := Registry.registrations ops
      (∀ t, r.contains t = true ↔ ∃ c, (t, c) ∈ entries) ∧
      (∀ t c, (r.register t c).2 = true ↔ ∃ d, (t, d) ∈ entries) ∧
      (∀ connector, (r.registerAws connector).2 = true ↔ ∃ d, (KmsType.aws, d) ∈ entries) ∧
      (∀ connector, (r.registerGcp connector).2 = true ↔ ∃ d, (KmsType.gcp, d) ∈ entries) ∧
      (∀ t, t ∈ r.kmsTypes ↔ ∃ c, (t, c) ∈ entries) ∧
      r.kmsTypes.Pairwise (fun t u => Octets.ofText t.name < Octets.ofText u.name) ∧
      (∀ t keyAlias algorithm parameters, r.resolve (.remote t keyAlias) algorithm parameters =
        match entries.reverse.lookup t with
        | some c => ⟨some ⟨t, keyAlias, algorithm, c.isCustom⟩, c.create keyAlias algorithm⟩
        | none => ⟨none, .error (.unsupportedBackend t)⟩) ∧
      ∀ key algorithm parameters,
        (r.resolve (.inMemory key) algorithm parameters).construction = none) ∧
    ∀ (s : Session) (services : ConnectorId → Service) (draw : Entropy) (name : String)
      (signer : Signer), s.signers.lookup name = some signer →
      ∀ steps : List Step, (∀ step ∈ steps, ¬ step.Keeps name) →
      ∀ (r : Registry) (message : Octets),
        let later : Session := { s.after services draw steps with registry := r }
        let contacts := ((signer.sign draw message).run services).1
        (s.perform services draw (.sign name message)).1.contacts = s.contacts ++ contacts ∧
        (later.perform services draw (.sign name message)).1.contacts =
          later.contacts ++ contacts ∧
        (later.perform services draw (.sign name message)).2 =
          (s.perform services draw (.sign name message)).2 := by
  refine ⟨fun ops => ?_, ?_⟩
  · intro r entries
    have hcontains : ∀ t, r.contains t = true ↔ ∃ c, (t, c) ∈ entries :=
      fun t => Registry.contains_after_iff
    have hascending : Registry.IsAscending r.entries :=
      Registry.isAscending_after List.Pairwise.nil ops
    exact ⟨hcontains, fun t c => hcontains t, fun _ => hcontains _, fun _ => hcontains _,
      fun t => Registry.mem_kmsTypes_iff.trans (hcontains t),
      Registry.pairwise_kmsTypes hascending, Registry.resolve_after ops, fun _ _ _ => rfl⟩
  · intro s services draw name signer h steps hsteps r message later contacts
    -- Signing in either session is the dialogue of the same signer.
    have hlater : later.signers.lookup name = some signer := (lookup_after hsteps).trans h
    obtain ⟨hcontacts, houtcome⟩ := perform_sign h message
    obtain ⟨hcontacts', houtcome'⟩ := perform_sign hlater message
    exact ⟨hcontacts, hcontacts', houtcome'.trans houtcome.symm⟩

/-- A signer of a backend that is replaced afterwards by one that refuses every alias. -/
theorem resolution_by_last_registration_replaced :
    let services : ConnectorId → Service := fun _ => ⟨.ok (), fun _ => .ok [], none⟩
    let draw : Entropy := (List.replicate · 0)
    let t : KmsType := ⟨"X"⟩
    let s := start.after services draw
      [.registerCustom t none, .resolve "key" (.ok (.remote t "alias")) "any" none]
    let steps : List Step := [.registerCustom t (some "no"), .registerAws 0]
    let later := s.after services draw steps
    (∃ signer, s.signers.lookup "key" = some signer) ∧ (∀ step ∈ steps, ¬ step.Keeps "key") ∧
      (s.perform services draw (.registerCustom t (some "no"))).2 = .replaced true ∧
      (later.perform services draw (.sign "key" [1, 2, 3])).2 =
        (s.perform services draw (.sign "key" [1, 2, 3])).2 ∧
      (s.perform services draw (.sign "key" [1, 2, 3])).2 = .signed [3, 2, 1] := by
  intro services draw t s steps later
  have hkept : s.signers.lookup "key" =
      some ⟨.service t, fun _ message => .done (.ok message.reverse)⟩ := by
    rfl
  have hsteps : ∀ step ∈ steps, ¬ step.Keeps "key" := by
    simp [steps, Step.Keeps]
  obtain ⟨-, -, hsame⟩ := resolution_by_last_registration.2 s services draw "key" _ hkept steps
    hsteps later.registry [1, 2, 3]
  exact ⟨⟨_, hkept⟩, hsteps, by rfl, hsame, by rfl⟩

end KeyCustody.Session
