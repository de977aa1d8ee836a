import KeyCustody.Engine.Registry
import KeyCustody.Proofs.Association
import KeyCustody.Proofs.Text.Utf8

/-!
# What a registry holds after a run of operations

A registry is changed by registrations only, and one registration changes the constructor of one
type. By induction over a run, the constructor of a type is the one registered last for it. The
types stay in strictly ascending order, so each of them is listed once.

## Main definitions

* `Registry.Operation`, `Registry.after` — operations on a registry, and a run of them
* `Registry.registrations` — the registrations in a run

## Main results

* `Registry.constructor?_insert`, `Registry.isAscending_insert` — what one registration does
* `Registry.constructor?_after`, `Registry.isAscending_after` — what a run does
* `Registry.resolve_after` — which constructor is called after a run
-/

namespace KeyCustody

/-- Types are compared as their names are. -/
theorem KmsType.compare_cases (s t : KmsType) :
    (s.compare t = .lt ∧ s.name < t.name) ∨ (s.compare t = .eq ∧ s = t) ∨
      (s.compare t = .gt ∧ t.name < s.name) := by
  unfold compare
  rcases lt_trichotomy s.name t.name with hlt | heq | hgt
  · exact .inl ⟨if_pos hlt, hlt⟩
  · obtain rfl : s = t := by
      cases s
      cases t
      exact congrArg KmsType.mk heq
    exact .inr (.inl ⟨by rw [if_neg (lt_irrefl _), if_pos rfl], rfl⟩)
  · exact .inr (.inr ⟨by rw [if_neg hgt.asymm, if_neg hgt.ne'], hgt⟩)

namespace Registry

variable {t u : KmsType} {c d : Constructor} {entries rest : List (KmsType × Constructor)}
  {r : Registry}

/-! ## One registration -/

theorem constructor?_cons : constructor? ⟨(t, c) :: rest⟩ u =
    if t = u then some c else constructor? ⟨rest⟩ u := by
  unfold constructor?
  by_cases h : t = u <;> simp [h]

/-- One registration changes the constructor of its type and of no other. -/
theorem constructor?_insert (t u : KmsType) (c : Constructor)
    (entries : List (KmsType × Constructor)) : constructor? ⟨insert t c entries⟩ u =
      if t = u then some c else constructor? ⟨entries⟩ u := by
  induction entries with
  | nil => exact constructor?_cons
  | cons e rest ih =>
    obtain ⟨s, d⟩ := e
    rcases t.compare_cases s with ⟨hcompare, -⟩ | ⟨hcompare, rfl⟩ | ⟨hcompare, hlt⟩
    · simp only [insert, hcompare, constructor?_cons]
    · simp only [insert, hcompare, constructor?_cons]
      split_ifs <;> rfl
    · -- The earlier entry is of another type, so the new one is found behind it.
      have hne : s ≠ t := fun h => hlt.ne (congrArg KmsType.name h)
      simp only [insert, hcompare, constructor?_cons, ih]
      split_ifs with hs ht
      · exact absurd (hs.trans ht.symm) hne
      · rfl
      · rfl
      · rfl

/-- The types stand in strictly ascending order. -/
def IsAscending (entries : List (KmsType × Constructor)) : Prop :=
  entries.Pairwise fun e f => e.1.name < f.1.name

theorem mem_insert {e : KmsType × Constructor} (h : e ∈ insert t c entries) :
    e = (t, c) ∨ e ∈ entries := by
  induction entries with
  | nil => exact .inl (List.mem_singleton.mp h)
  | cons f rest ih =>
    obtain ⟨s, d⟩ := f
    rcases t.compare_cases s with ⟨hcompare, -⟩ | ⟨hcompare, -⟩ | ⟨hcompare, -⟩ <;>
      simp only [insert, hcompare, List.mem_cons] at h ⊢
    · exact h
    · exact h.imp_right .inr
    · rcases h with h | h
      · exact .inr (.inl h)
      · exact (ih h).imp_right .inr

/-- A registration keeps the order. -/
theorem isAscending_insert (h : IsAscending entries) : IsAscending (insert t c entries) := by
  -- The new entry stops in front of the first type above its own, so all behind it are above it.
  induction entries with
  | nil => exact List.pairwise_singleton _ _
  | cons e rest ih =>
    obtain ⟨s, d⟩ := e
    obtain ⟨hfirst, hrest⟩ := List.pairwise_cons.mp h
    rcases t.compare_cases s with ⟨hcompare, hlt⟩ | ⟨hcompare, rfl⟩ | ⟨hcompare, hlt⟩ <;>
      simp only [insert, hcompare]
    · refine List.pairwise_cons.mpr ⟨List.forall_mem_cons.mpr ⟨hlt, ?_⟩, h⟩
      exact fun f hf => hlt.trans (hfirst f hf)
    · exact List.pairwise_cons.mpr ⟨hfirst, hrest⟩
    · refine List.pairwise_cons.mpr ⟨fun f hf => ?_, ih hrest⟩
      rcases mem_insert hf with rfl | hf
      · exact hlt
      · exact hfirst f hf

/-! ## Looking at a registry -/

theorem mem_kmsTypes_iff : t ∈ r.kmsTypes ↔ r.contains t := by
  unfold kmsTypes contains constructor?
  rw [Option.isSome_map, List.find?_isSome, List.mem_map]
  simp

theorem pairwise_kmsTypes (h : IsAscending r.entries) :
    r.kmsTypes.Pairwise fun s t => Octets.ofText s.name < Octets.ofText t.name :=
  List.pairwise_map.mpr (h.imp fun hlt => Octets.ofText_lt_ofText hlt)

/-! ## Runs -/

/-- An operation on a registry. -/
inductive Operation
  | register (kmsType : KmsType) (constructor : Constructor)
  | registerAws (connector : ConnectorId)
  | registerGcp (connector : ConnectorId)
  | contains (kmsType : KmsType)
  | kmsTypes
  | resolve (source : KeySource) (algorithm : String)
      (parameters : Option SignatureAlgorithm.Parameters)

/-- The registry after an operation. -/
def perform (r : Registry) : Operation → Registry
  | .register kmsType constructor => (r.register kmsType constructor).1
  | .registerAws connector => (r.registerAws connector).1
  | .registerGcp connector => (r.registerGcp connector).1
  | .contains _ | .kmsTypes | .resolve .. => r

/-- The registry after a run of operations. -/
def after (r : Registry) (ops : List Operation) : Registry := ops.foldl perform r

/-- What an operation registers. -/
def Operation.registration? : Operation → Option (KmsType × Constructor)
  | .register kmsType constructor => some (kmsType, constructor)
  | .registerAws connector => some (.aws, .aws connector)
  | .registerGcp connector => some (.gcp, .gcp connector)
  | .contains _ | .kmsTypes | .resolve .. => none

/-- What a run of operations registers, in order. -/
def registrations (ops : List Operation) : List (KmsType × Constructor) :=
  ops.filterMap Operation.registration?

/-- A step either registers one constructor or leaves the registry as it is. -/
theorem perform_eq (r : Registry) (op : Operation) : r.perform op =
    match op.registration? with
    | some (t, c) => ⟨insert t c r.entries⟩
    | none => r := by
  cases op <;> rfl

theorem constructor?_perform (r : Registry) (op : Operation) (t : KmsType) :
    (r.perform op).constructor? t =
      (op.registration?.toList.lookup t).or (r.constructor? t) := by
  rw [perform_eq]
  cases op.registration? with
  | none => rfl
  | some e =>
    obtain ⟨s, c⟩ := e
    rw [constructor?_insert, Option.toList_some, Association.lookup_cons]
    by_cases h : s = t
    · rw [if_pos h, if_pos h.symm, Option.some_or]
    · rw [if_neg h, if_neg (Ne.symm h)]
      rfl

/-- After a run, the constructor of a type is the one registered last for it. -/
theorem constructor?_after (r : Registry) (ops : List Operation) (t : KmsType) :
    (r.after ops).constructor? t =
      ((registrations ops).reverse.lookup t).or (r.constructor? t) := by
  induction ops generalizing r with
  | nil => rfl
  | cons op ops ih =>
    have hreverse : (registrations (op :: ops)).reverse =
        (registrations ops).reverse ++ op.registration?.toList := by
      unfold registrations
      cases hop : op.registration? <;> simp [hop]
    calc (r.after (op :: ops)).constructor? t
        = ((registrations ops).reverse.lookup t).or ((r.perform op).constructor? t) :=
          ih (r.perform op)
      _ = ((registrations (op :: ops)).reverse.lookup t).or (r.constructor? t) := by
          rw [constructor?_perform, hreverse, List.lookup_append, Option.or_assoc]

theorem isAscending_after (h : IsAscending r.entries) (ops : List Operation) :
    IsAscending (r.after ops).entries := by
  induction ops generalizing r with
  | nil => exact h
  | cons op ops ih =>
    apply ih
    rw [perform_eq]
    cases op.registration? with
    | none => exact h
    | some e => exact isAscending_insert h

variable {ops : List Operation}

theorem constructor?_after_empty (ops : List Operation) (t : KmsType) :
    (empty.after ops).constructor? t = (registrations ops).reverse.lookup t := by
  rw [constructor?_after]
  exact Option.or_none

/-- A type is known after a run exactly if it was registered in it. -/
theorem contains_after_iff : (empty.after ops).contains t ↔ ∃ c, (t, c) ∈ registrations ops := by
  rw [contains, constructor?_after_empty, List.lookup_isSome_iff]
  simp

theorem resolve_after (ops : List Operation) (t : KmsType) (keyAlias algorithm : String)
    (parameters : Option SignatureAlgorithm.Parameters) :
    (empty.after ops).resolve (.remote t keyAlias) algorithm parameters =
      match (registrations ops).reverse.lookup t with
      | some c => ⟨some ⟨t, keyAlias, algorithm, c.isCustom⟩, c.create keyAlias algorithm⟩
      | none => ⟨none, .error (.unsupportedBackend t)⟩ := by
  unfold resolve
  dsimp only
  rw [constructor?_after_empty]
  cases (registrations ops).reverse.lookup t <;> rfl

end Registry

end KeyCustody
