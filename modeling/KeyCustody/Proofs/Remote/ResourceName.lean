import KeyCustody.Proofs.Outcome
import KeyCustody.Proofs.Text.Segments
import KeyCustody.Remote.ResourceName
import Mathlib.Algebra.Order.Group.Nat

/-!
# Resource names are read as they are written

A path is read by its segments: every other one has to name the collection that belongs there, and
those between are the identifiers. Nothing is lost on the way, so a path is the written form of the
name that is read from it, and each name whose identifiers are not empty and hold no slash is read
from its written form. A slash in an identifier is a segment more, and a path with too many segments
is not read at all, so no name with such an identifier comes back.

## Main definitions

* `ResourceName.IsIdentifier` — what may stand for a resource in a path
* `KeyRingName.IsWellFormed`, `KeyVersionName.IsWellFormed` — names of such identifiers

## Main results

* `ResourceName.parse_eq_ok_iff` — reading a path through given collections
* `ResourceName.parse_bind_eq_ok_iff` — reading the names of a kind
* `KeyRingName.parse_eq_ok_iff`, `KeyVersionName.parse_eq_ok_iff` — reading the name of a key ring
  and of a version of a key
* `ResourceName.parse_inverts_text` — names are read exactly as they are written
-/

namespace KeyCustody

namespace ResourceName

/-- What may stand for a resource in a path. -/
def IsIdentifier (id : String) : Prop := id ≠ "" ∧ '/' ∉ id.toList

instance (id : String) : Decidable (IsIdentifier id) := inferInstanceAs (Decidable (_ ∧ _))

/-- The segments of a path through collections to the resources with the given identifiers. -/
def segments : List String → List String → List (List Char)
  | name :: collections, id :: ids => name.toList :: id.toList :: segments collections ids
  | _, _ => []

variable {collections ids : List String} {parts : List (List Char)} {path : String}

theorem length_segments (h : ids.length = collections.length) :
    (segments collections ids).length = 2 * collections.length := by
  induction collections generalizing ids with
  | nil => rfl
  | cons name collections ih =>
    obtain _ | ⟨id, ids⟩ := ids
    · cases h
    · simp only [segments, List.length_cons, ih (Nat.succ_inj.mp h)]
      omega

theorem forall_mem_segments {P : List Char → Prop} (h : ids.length = collections.length) :
    (∀ part ∈ segments collections ids, P part) ↔
      (∀ name ∈ collections, P name.toList) ∧ ∀ id ∈ ids, P id.toList := by
  induction collections generalizing ids with
  | nil =>
    obtain rfl := List.length_eq_zero_iff.mp h
    simp [segments]
  | cons name collections ih =>
    obtain _ | ⟨id, ids⟩ := ids
    · cases h
    · simp only [segments, List.forall_mem_cons, ih (Nat.succ_inj.mp h), and_assoc, and_left_comm]

/-- Identifiers are read off as many segments as there have to be. -/
theorem identifiers_eq_ok_iff {position : Nat} (hlength : parts.length = 2 * collections.length) :
    identifiers position collections parts = .ok ids ↔
      ids.length = collections.length ∧ (∀ id ∈ ids, id ≠ "") ∧ parts = segments collections ids := by
  -- Along the collections: each takes two segments, so the rest is as long as the others need it.
  induction collections generalizing position parts ids with
  | nil =>
    obtain rfl := List.length_eq_zero_iff.mp hlength
    simp only [identifiers, Except.ok.injEq]
    constructor
    · rintro rfl
      simp [segments]
    · rintro ⟨hids, -⟩
      exact (List.length_eq_zero_iff.mp hids).symm
  | cons name collections ih =>
    match parts, hlength with
    | collection :: id :: rest, hlength =>
      have hrest : rest.length = 2 * collections.length := by
        simp only [List.length_cons] at hlength
        omega
      rw [identifiers]
      constructor
      · intro h
        split_ifs at h with hname hempty
        obtain ⟨later, hlater, rfl⟩ := Outcome.map_eq_ok_iff.mp h
        obtain ⟨hids, hne, rfl⟩ := (ih hrest).mp hlater
        refine ⟨congrArg Nat.succ hids, List.forall_mem_cons.mpr ⟨?_, hne⟩, ?_⟩
        · rwa [Ne, String.ofList_eq_empty_iff]
        · simp [segments, not_not.mp hname]
      · rintro ⟨hids, hne, hparts⟩
        obtain _ | ⟨id', ids⟩ := ids
        · cases hids
        · obtain ⟨hid, hne⟩ := List.forall_mem_cons.mp hne
          simp only [segments, List.cons.injEq] at hparts
          obtain ⟨rfl, rfl, hparts⟩ := hparts
          have hempty : id'.toList ≠ [] := mt String.toList_eq_nil_iff.mp hid
          rw [if_neg (not_not.mpr rfl), if_neg hempty, Outcome.map_eq_ok_iff]
          exact ⟨ids, (ih hrest).mpr ⟨Nat.succ_inj.mp hids, hne, hparts⟩, by simp⟩

/-- A path of identifiers in collections has the segments that it is written with. -/
theorem cut_eq_segments (hne : collections ≠ []) (hslash : ∀ name ∈ collections, '/' ∉ name.toList)
    (hids : ids.length = collections.length) (hid : ∀ id ∈ ids, IsIdentifier id)
    (hpath : path.toList = ['/'].intercalate (segments collections ids)) :
    Segments.cut '/' path.toList = segments collections ids := by
  refine Segments.cut_eq_iff.mpr ⟨?_, ?_, hpath⟩
  · apply List.ne_nil_of_length_pos
    rw [length_segments hids]
    have := List.length_pos_iff.mpr hne
    omega
  · exact (forall_mem_segments hids).mpr ⟨hslash, fun id h => (hid id h).2⟩

/-- A path is read as the identifiers that it is written with. -/
theorem parse_eq_ok_iff (hne : collections ≠ []) (hslash : ∀ name ∈ collections, '/' ∉ name.toList) :
    parse collections path = .ok ids ↔ ids.length = collections.length ∧
      (∀ id ∈ ids, IsIdentifier id) ∧ path.toList = ['/'].intercalate (segments collections ids) := by
  unfold parse
  constructor
  · intro h
    dsimp only at h
    split_ifs at h with hlength
    obtain ⟨hids, hnonempty, hparts⟩ :=
      (identifiers_eq_ok_iff hlength).mp (Outcome.mapError_eq_ok_iff.mp h)
    obtain ⟨-, hnoSlash, hpath⟩ := Segments.cut_eq_iff.mp hparts
    obtain ⟨-, hids'⟩ := (forall_mem_segments hids).mp hnoSlash
    exact ⟨hids, fun id hid => ⟨hnonempty id hid, hids' id hid⟩, hpath⟩
  · -- Only without a slash in the identifiers are the segments the ones that were put together.
    rintro ⟨hids, hid, hpath⟩
    have hparts := cut_eq_segments hne hslash hids hid hpath
    have hlength := length_segments hids
    dsimp only
    rw [hparts, if_pos hlength, Outcome.mapError_eq_ok_iff, identifiers_eq_ok_iff hlength]
    exact ⟨hids, fun id h => (hid id h).1, rfl⟩

/-- A path that is not read is refused, and handed back as it is. -/
theorem parse_eq_error {e : KeyError} (h : parse collections path = .error e) :
    ∃ fault, e = .invalidKeyAlias path fault := by
  unfold parse at h
  dsimp only at h
  split_ifs at h
  · obtain ⟨fault, -, rfl⟩ := Outcome.mapError_eq_error_iff.mp h
    exact ⟨fault, rfl⟩
  · exact ⟨_, (Except.error.inj h).symm⟩

/-! ### Names of a kind

A kind of name has its collections, and its names are made from as many identifiers. -/

section Kind

variable {α : Type} (idsOf : α → List String) (text : α → String)
  {make : List String → Except KeyError α}

/-- A path is read as a name exactly if the identifiers of the name may stand in a path and the name
is written as that path. -/
theorem parse_bind_eq_ok_iff (hne : collections ≠ [])
    (hslash : ∀ name ∈ collections, '/' ∉ name.toList)
    (hlength : ∀ n, (idsOf n).length = collections.length)
    (htext : ∀ n, (text n).toList = ['/'].intercalate (segments collections (idsOf n)))
    (hmake : ∀ ids, ids.length = collections.length → ∀ n, make ids = .ok n ↔ ids = idsOf n)
    {n : α} : (parse collections path >>= make) = .ok n ↔
      (∀ id ∈ idsOf n, IsIdentifier id) ∧ path = text n := by
  rw [Outcome.bind_eq_ok_iff]
  simp only [parse_eq_ok_iff hne hslash]
  constructor
  · rintro ⟨ids, ⟨hids, hid, hpath⟩, hn⟩
    obtain rfl := (hmake ids hids n).mp hn
    exact ⟨hid, String.toList_injective (hpath.trans (htext n).symm)⟩
  · rintro ⟨hid, rfl⟩
    exact ⟨idsOf n, ⟨hlength n, hid, htext n⟩, (hmake _ (hlength n) n).mpr rfl⟩

theorem parse_bind_eq_error
    (hmake : ∀ ids e, make ids = .error e → ∃ fault, e = .invalidKeyAlias path fault) {e : KeyError}
    (h : (parse collections path >>= make) = .error e) :
    ∃ fault, e = .invalidKeyAlias path fault := by
  rcases Outcome.bind_eq_error_iff.mp h with hparse | ⟨ids, -, he⟩
  · exact parse_eq_error hparse
  · exact hmake ids e he

end Kind

end ResourceName

/-! ## Key rings -/

namespace KeyRingName

variable {n : KeyRingName} {path : String}

/-- The identifiers in a name, from the project down. -/
def ids (n : KeyRingName) : List String := [n.project, n.location, n.keyRing]

/-- Every identifier may stand in a path. -/
def IsWellFormed (n : KeyRingName) : Prop := ∀ id ∈ n.ids, ResourceName.IsIdentifier id

instance (n : KeyRingName) : Decidable n.IsWellFormed :=
  inferInstanceAs (Decidable (∀ id ∈ n.ids, ResourceName.IsIdentifier id))

theorem toList_text (n : KeyRingName) : n.text.toList =
    ['/'].intercalate (ResourceName.segments ResourceName.keyRingCollections n.ids) := by
  simp [text, ids, ResourceName.segments, ResourceName.keyRingCollections, String.toList_append,
    List.intercalate_cons_cons]

/-- A path is read as a name exactly if the name is well formed and written so. -/
theorem parse_eq_ok_iff : parse path = .ok n ↔ n.IsWellFormed ∧ path = n.text := by
  refine ResourceName.parse_bind_eq_ok_iff ids text (by decide) (by decide) (fun _ => rfl)
    toList_text fun ids hids n => ?_
  match ids, hids with
  | [project, location, keyRing], _ =>
    obtain ⟨project', location', keyRing'⟩ := n
    simp [KeyRingName.ids, pure, Except.pure]

theorem parse_eq_error {e : KeyError} (h : parse path = .error e) :
    ∃ fault, e = .invalidKeyAlias path fault := by
  refine ResourceName.parse_bind_eq_error (fun ids e he => ?_) h
  split at he
  · cases he
  · exact ⟨_, (Except.error.inj he).symm⟩

end KeyRingName

/-! ## Versions of a key -/

namespace KeyVersionName

variable {n : KeyVersionName} {path : String}

/-- The identifiers in a name, from the project down. -/
def ids (n : KeyVersionName) : List String :=
  [n.project, n.location, n.keyRing, n.cryptoKey, n.version]

/-- Every identifier may stand in a path. -/
def IsWellFormed (n : KeyVersionName) : Prop := ∀ id ∈ n.ids, ResourceName.IsIdentifier id

instance (n : KeyVersionName) : Decidable n.IsWellFormed :=
  inferInstanceAs (Decidable (∀ id ∈ n.ids, ResourceName.IsIdentifier id))

theorem toList_text (n : KeyVersionName) : n.text.toList =
    ['/'].intercalate (ResourceName.segments ResourceName.keyVersionCollections n.ids) := by
  simp [text, ring, KeyRingName.text, ids, ResourceName.segments,
    ResourceName.keyVersionCollections, ResourceName.keyRingCollections, String.toList_append,
    List.intercalate_cons_cons]

/-- A path is read as a name exactly if the name is well formed and written so. -/
theorem parse_eq_ok_iff : parse path = .ok n ↔ n.IsWellFormed ∧ path = n.text := by
  refine ResourceName.parse_bind_eq_ok_iff ids text (by decide) (by decide) (fun _ => rfl)
    toList_text fun ids hids n => ?_
  match ids, hids with
  | [project, location, keyRing, cryptoKey, version], _ =>
    obtain ⟨project', location', keyRing', cryptoKey', version'⟩ := n
    simp [KeyVersionName.ids, pure, Except.pure]

theorem parse_eq_error {e : KeyError} (h : parse path = .error e) :
    ∃ fault, e = .invalidKeyAlias path fault := by
  refine ResourceName.parse_bind_eq_error (fun ids e he => ?_) h
  split at he
  · cases he
  · exact ⟨_, (Except.error.inj he).symm⟩

/-- The ring of a key is named by the first of its identifiers. -/
theorem IsWellFormed.ring (h : n.IsWellFormed) : n.ring.IsWellFormed := by
  intro id hid
  have hids : n.ids = n.ring.ids ++ [n.cryptoKey, n.version] := rfl
  exact h id (hids ▸ List.mem_append_left _ hid)

/-- The ring of a key is written as the first six segments of its path. -/
theorem IsWellFormed.toList_text_ring (h : n.IsWellFormed) :
    n.ring.text.toList = ['/'].intercalate ((Segments.cut '/' n.text.toList).take 6) := by
  have hsegments : Segments.cut '/' n.text.toList =
      ResourceName.segments ResourceName.keyVersionCollections n.ids :=
    ResourceName.cut_eq_segments (by decide) (by decide) rfl h (toList_text n)
  rw [hsegments, KeyRingName.toList_text]
  rfl

end KeyVersionName

/-! ## Reading and writing -/

/-- Resource names are read exactly as they are written. A path is read as the name of a version of
a key, or of a key ring, if and only if it leads through the collections of that kind to identifiers
that are not empty and hold no slash; the name has these identifiers, and it is written as the path.
A name is read from its own path if and only if it is well formed. The ring of a version that was
read is written as the first six segments of the path, and with the last two identifiers it gives
the version again. Whatever is refused is refused with the path as it is. -/
theorem ResourceName.parse_inverts_text :
    (∀ path n, KeyVersionName.parse path = .ok n ↔
      (∀ id ∈ [n.project, n.location, n.keyRing, n.cryptoKey, n.version],
        id ≠ "" ∧ '/' ∉ id.toList) ∧
      path = "projects/" ++ n.project ++ "/locations/" ++ n.location ++ "/keyRings/" ++ n.keyRing ++
        "/cryptoKeys/" ++ n.cryptoKey ++ "/cryptoKeyVersions/" ++ n.version) ∧
    (∀ path n, KeyRingName.parse path = .ok n ↔
      (∀ id ∈ [n.project, n.location, n.keyRing], id ≠ "" ∧ '/' ∉ id.toList) ∧
      path = "projects/" ++ n.project ++ "/locations/" ++ n.location ++ "/keyRings/" ++ n.keyRing) ∧
    (∀ n : KeyVersionName, KeyVersionName.parse n.text = .ok n ↔ n.IsWellFormed) ∧
    (∀ n : KeyRingName, KeyRingName.parse n.text = .ok n ↔ n.IsWellFormed) ∧
    (∀ path n, KeyVersionName.parse path = .ok n → n.text = path ∧
      KeyRingName.parse n.ring.text = .ok n.ring ∧
      n.ring.text.toList = ['/'].intercalate ((Segments.cut '/' path.toList).take 6) ∧
      n.ring.keyVersion n.cryptoKey n.version = n) ∧
    (∀ path n, KeyRingName.parse path = .ok n → n.text = path) ∧
    (∀ path e, KeyVersionName.parse path = .error e → ∃ fault, e = .invalidKeyAlias path fault) ∧
    ∀ path e, KeyRingName.parse path = .error e → ∃ fault, e = .invalidKeyAlias path fault := by
  refine ⟨fun path n => KeyVersionName.parse_eq_ok_iff, fun path n => KeyRingName.parse_eq_ok_iff,
    fun n => ?_, fun n => ?_, fun path n h => ?_, fun path n h => ?_,
    fun path e => KeyVersionName.parse_eq_error, fun path e => KeyRingName.parse_eq_error⟩
  · rw [KeyVersionName.parse_eq_ok_iff]
    exact and_iff_left rfl
  · rw [KeyRingName.parse_eq_ok_iff]
    exact and_iff_left rfl
  · obtain ⟨hn, rfl⟩ := KeyVersionName.parse_eq_ok_iff.mp h
    exact ⟨rfl, KeyRingName.parse_eq_ok_iff.mpr ⟨hn.ring, rfl⟩, hn.toList_text_ring, rfl⟩
  · obtain ⟨-, rfl⟩ := KeyRingName.parse_eq_ok_iff.mp h
    rfl

/-- Identifiers that are names of collections or spaces, one with a slash in it, and a bare name. -/
theorem ResourceName.parse_inverts_text_odd :
    let odd : KeyVersionName := ⟨"projects", " ", "cryptoKeys", "locations", "1"⟩
    let slashed : KeyVersionName := ⟨"p", "l", "r", "k/cryptoKeyVersions/1/cryptoKeys/k", "1"⟩
    KeyVersionName.parse odd.text = .ok odd ∧ KeyRingName.parse odd.ring.text = .ok odd.ring ∧
      odd.ring.text = "projects/projects/locations/ /keyRings/cryptoKeys" ∧
      KeyVersionName.parse slashed.text ≠ .ok slashed ∧
      ∃ e fault, KeyVersionName.parse "app" = .error e ∧ e = .invalidKeyAlias "app" fault := by
  intro odd slashed
  obtain ⟨-, -, hversion, -, hread, -, hrefused, -⟩ := parse_inverts_text
  have hodd : KeyVersionName.parse odd.text = .ok odd := (hversion odd).mpr (by decide)
  refine ⟨hodd, (hread _ _ hodd).2.1, rfl, mt (hversion slashed).mp (by decide), ?_⟩
  have hbare : KeyVersionName.parse "app" =
      .error (.invalidKeyAlias "app" (.segmentCount 10 1)) := by
    decide
  obtain ⟨fault, hfault⟩ := hrefused "app" _ hbare
  exact ⟨_, fault, hbare, hfault⟩

end KeyCustody
