import KeyCustody.Der.KeyDocument
import KeyCustody.Proofs.Der.Element

/-!
# Reading back key documents

The envelopes are built of elements in a row and nested in one another, so what is written is read
back part by part. The conditions are those of the parts: identifiers have arcs, parameters are
elements, and no content reaches the length limit.

## Main definitions

* `AlgorithmIdentifier.IsWritten` — the conditions on an algorithm identifier

## Main results

* `Der.Identifier.take?_encode`, `AlgorithmIdentifier.take?_encode` — identifiers
* `AlgorithmIdentifier.eq_encode_of_take?` — no other form of an algorithm identifier is read
* `PublicKeyDocument.decode?_encode`, `PublicKeyDocument.encode_of_decode?` — the public-key
  envelope, which has one form
* `PrivateKeyDocument.decode?_encode`, `PrivateKeyDocument.exists_rest_of_decode?` — the private-key
  envelope, and what it is made of
* `PrivateKeyDocument.parts_infix_of_decode?` — where the parts of a document stand in it
* `PublicKeyDocument.decode?_eq_none_of_privateKey` — no octets are both envelopes
-/

namespace KeyCustody

open Der

/-! ## Identifiers -/

namespace Der.Identifier

theorem length_content_le {i : Identifier} (h : i.arcs?.isSome) : i.content.length ≤ 39 := by
  unfold arcs? at h
  cases hcontent : i.content with
  | nil => simp
  | cons x rest =>
    rw [hcontent] at h
    dsimp only at h
    split_ifs at h with hbounds
    · rw [List.length_cons]
      omega
    · simp at h

theorem take?_encode {i : Identifier} (h : i.arcs?.isSome) (rest : Octets) :
    take? (i.encode ++ rest) = some (i, rest) := by
  have hlength : i.content.length < lengthLimit := lt_lengthLimit (length_content_le h) (by decide)
  have hcontent : content? identifierTag (i.encode ++ rest) = some (i.content, rest) :=
    content?_encode (e := ⟨identifierTag, i.content⟩) rfl hlength rest
  have hidentifier : ofContent? i.content = some i := if_pos h
  simp [take?, hcontent, hidentifier]

/-- Only the written form of an identifier is read. -/
theorem eq_encode_of_take? {i : Identifier} {b rest : Octets} (h : take? b = some (i, rest)) :
    b = i.encode ++ rest := by
  simp only [take?, Option.bind_eq_bind, Option.bind_eq_some_iff] at h
  obtain ⟨⟨content, behind⟩, hcontent, read, hread, hi⟩ := h
  obtain ⟨rfl, rfl⟩ := Prod.mk.inj (Option.some_inj.mp hi)
  unfold ofContent? at hread
  split_ifs at hread
  obtain rfl := Option.some_inj.mp hread
  exact (content?_eq_some_iff.mp hcontent).2.2

end Der.Identifier

namespace AlgorithmIdentifier

/-- The conditions under which an algorithm identifier is read back. -/
structure IsWritten (a : AlgorithmIdentifier) : Prop where
  arcs : a.identifier.arcs?.isSome
  parameters : ∀ e ∈ a.parameters, isTag e.tag = true ∧ e.content.length < lengthLimit
  length_content : a.content.length < lengthLimit

variable {a : AlgorithmIdentifier}

theorem IsWritten.ofContent?_content (h : a.IsWritten) : ofContent? a.content = some a := by
  obtain ⟨identifier, parameters⟩ := a
  have hidentifier := Identifier.take?_encode h.arcs
    ((parameters.map Element.encode).getD [])
  unfold content ofContent?
  rw [hidentifier]
  -- With nothing behind the identifier there are no parameters to read.
  cases parameters with
  | none => rfl
  | some e =>
    obtain ⟨htag, hlength⟩ := h.parameters e rfl
    have helement := take?_encode htag hlength []
    rw [List.append_nil] at helement
    have hne : e.encode ≠ [] := List.cons_ne_nil _ _
    simp [helement]

theorem IsWritten.take?_encode (h : a.IsWritten) (rest : Octets) :
    take? (a.encode ++ rest) = some (a, rest) := by
  simp [take?, encode, content?_encodeSequence h.length_content, h.ofContent?_content]

variable {b rest : Octets}

/-- Behind the identifier there are no parameters or one element, and nothing else. -/
theorem content_of_ofContent? (h : ofContent? b = some a) : a.content = b := by
  simp only [ofContent?, Option.bind_eq_bind, Option.bind_eq_some_iff] at h
  obtain ⟨⟨identifier, behind⟩, hidentifier, hread⟩ := h
  rw [Identifier.eq_encode_of_take? hidentifier]
  dsimp only at hread
  split at hread
  · obtain rfl := Option.some_inj.mp hread
    rfl
  · split at hread
    · next parameters hparameters =>
      obtain rfl := Option.some_inj.mp hread
      obtain ⟨-, -, rfl⟩ := take?_eq_some_iff.mp hparameters
      rw [List.append_nil]
      rfl
    · cases hread

/-- Only the written form of an algorithm identifier is read. -/
theorem eq_encode_of_take? (h : take? b = some (a, rest)) : b = a.encode ++ rest := by
  simp only [take?, Option.bind_eq_bind, Option.bind_eq_some_iff] at h
  obtain ⟨⟨content, behind⟩, hcontent, read, hread, ha⟩ := h
  obtain ⟨rfl, rfl⟩ := Prod.mk.inj (Option.some_inj.mp ha)
  obtain ⟨-, -, rfl⟩ := content?_eq_some_iff.mp hcontent
  rw [encode, content_of_ofContent? hread, encodeSequence]

end AlgorithmIdentifier

/-! ## Envelopes -/

namespace PublicKeyDocument

/-- The content of the outer sequence. -/
def content (d : PublicKeyDocument) : Octets :=
  d.algorithm.encode ++ Element.encode ⟨bitStringTag, 0 :: d.publicKey⟩

theorem encode_eq (d : PublicKeyDocument) : d.encode = encodeSequence d.content := rfl

/-- The bits of the public key are counted, and none is unused. -/
theorem zero_mem_encode (d : PublicKeyDocument) : 0 ∈ d.encode := by
  have hbits : 0 ∈ Element.encode ⟨bitStringTag, 0 :: d.publicKey⟩ :=
    (Element.content_infix_encode ⟨bitStringTag, 0 :: d.publicKey⟩).subset List.mem_cons_self
  exact (Element.content_infix_encode ⟨sequenceTag, d.content⟩).subset
    (List.mem_append_right _ hbits)

/-- A public-key document whose length can be written is read back. -/
theorem decode?_encode_of_length_content {d : PublicKeyDocument}
    (halgorithm : d.algorithm.IsWritten) (hcontent : d.content.length < lengthLimit) :
    decode? d.encode = some d := by
  have hkey : (0 :: d.publicKey).length < lengthLimit := by
    calc (0 :: d.publicKey).length
      _ ≤ (Element.encode ⟨bitStringTag, 0 :: d.publicKey⟩).length :=
        (Element.content_infix_encode ⟨bitStringTag, 0 :: d.publicKey⟩).length_le
      _ ≤ d.content.length := (List.suffix_append d.algorithm.encode _).length_le
      _ < lengthLimit := hcontent
  have hbits : sole? bitStringTag (Element.encode ⟨bitStringTag, 0 :: d.publicKey⟩) =
      some (0 :: d.publicKey) :=
    sole?_encode (e := ⟨bitStringTag, 0 :: d.publicKey⟩) rfl hkey
  rw [decode?, encode_eq, sole?_encodeSequence hcontent]
  simp [ofContent?, content, halgorithm.take?_encode, hbits, wholeBits?]

/-- A public-key document of any length that a machine can count is read back. -/
theorem decode?_encode {d : PublicKeyDocument} (halgorithm : d.algorithm.IsWritten)
    (hlength : d.algorithm.encode.length + d.publicKey.length < 2 ^ 127) :
    decode? d.encode = some d := by
  have hkey : d.publicKey.length + 1 < lengthLimit := lt_lengthLimit le_rfl (by omega)
  apply decode?_encode_of_length_content halgorithm
  have hle : (Element.encode ⟨bitStringTag, 0 :: d.publicKey⟩).length ≤
      d.publicKey.length + 1 + 129 := length_encode_le hkey
  apply lt_lengthLimit (k := 2 ^ 127 + 130) _ (by decide)
  rw [content, List.length_append]
  omega

/-- Only the written form of a public-key document is read: no part of it has a second form, and
nothing stands between the parts or behind them. -/
theorem encode_of_decode? {d : PublicKeyDocument} {b : Octets} (h : decode? b = some d) :
    d.encode = b := by
  simp only [decode?, ofContent?, Option.bind_eq_bind, Option.bind_eq_some_iff] at h
  obtain ⟨content, hcontent, ⟨algorithm, behind⟩, halgorithm, bits, hbits, key, hkey, hd⟩ := h
  obtain rfl := Option.some_inj.mp hd
  obtain ⟨-, -, rfl⟩ := sole?_eq_some_iff.mp hcontent
  obtain ⟨-, -, rfl⟩ := sole?_eq_some_iff.mp hbits
  obtain rfl := wholeBits?_eq_some_iff.mp hkey
  rw [AlgorithmIdentifier.eq_encode_of_take? halgorithm]
  rfl

end PublicKeyDocument

namespace PrivateKeyDocument

/-- The version in front: one if a public key is behind, else zero. -/
def version (d : PrivateKeyDocument) : Nat := if d.publicKey.isSome then 1 else 0

theorem version_lt (d : PrivateKeyDocument) : d.version < 128 := by
  rw [version]
  split_ifs <;> decide

/-- The element around the public key, if there is one. -/
def publicElement (d : PrivateKeyDocument) : Octets :=
  (d.publicKey.map fun k => Element.encode ⟨0x81, 0 :: k⟩).getD []

/-- The content of the outer sequence. -/
def content (d : PrivateKeyDocument) : Octets :=
  encodeNatural d.version ++ d.algorithm.encode ++
    Element.encode ⟨octetStringTag, d.privateKey⟩ ++ d.publicElement

theorem encode_eq (d : PrivateKeyDocument) : d.encode = encodeSequence d.content := rfl

/-- The key inside stands in the written form as it is. -/
theorem privateKey_infix_encode (d : PrivateKeyDocument) : d.privateKey <:+: d.encode := by
  have hcontent : Element.encode ⟨octetStringTag, d.privateKey⟩ <:+: d.content :=
    ⟨encodeNatural d.version ++ d.algorithm.encode, d.publicElement, rfl⟩
  exact (Element.content_infix_encode ⟨octetStringTag, d.privateKey⟩).trans
    (hcontent.trans (Element.content_infix_encode ⟨sequenceTag, d.content⟩))

theorem takeVersion?_encodeNatural (d : PrivateKeyDocument) (rest : Octets) :
    takeVersion? (encodeNatural d.version ++ rest) = some (d.publicKey.isSome, rest) := by
  rw [takeVersion?, takeNatural?_encodeNatural_of_lt d.version_lt, version]
  cases d.publicKey.isSome <;> rfl

/-- A public key is read from the element that was written for it, and its absence where nothing
was written. -/
theorem takeContext?_publicElement {d : PrivateKeyDocument}
    (h : ∀ k ∈ d.publicKey, k.length + 1 < lengthLimit) :
    takeContext? 1 d.publicElement =
      some (d.publicKey.map fun k => ⟨0x81, 0 :: k⟩, []) := by
  cases hkey : d.publicKey with
  | none =>
    simp only [publicElement, hkey, Option.map_none, Option.getD_none]
    exact takeContext?_nil 1
  | some k =>
    have htag : isTag 0x81 = true ∧ isContext 0x81 = true ∧ tagNumber 0x81 = 1 := by decide
    have hread := takeContext?_encode (e := ⟨0x81, 0 :: k⟩) htag.1 htag.2.1 htag.2.2 (h k hkey) []
    rw [List.append_nil] at hread
    simp only [publicElement, hkey, Option.map_some, Option.getD_some]
    exact hread

theorem length_publicElement_le {d : PrivateKeyDocument}
    (h : ∀ k ∈ d.publicKey, k.length + 1 < lengthLimit) :
    d.publicElement.length ≤ (d.publicKey.getD []).length + 130 := by
  cases hkey : d.publicKey with
  | none => simp [publicElement, hkey]
  | some k =>
    simp only [publicElement, hkey, Option.map_some, Option.getD_some]
    exact length_encode_le (h k hkey)

/-- A private-key document of any length that a machine can count is read back. -/
theorem decode?_encode {d : PrivateKeyDocument} (halgorithm : d.algorithm.IsWritten)
    (hlength : d.algorithm.encode.length + d.privateKey.length + (d.publicKey.getD []).length <
      2 ^ 127) : decode? d.encode = some d := by
  have hprivate : d.privateKey.length < lengthLimit := lt_lengthLimit le_rfl (by omega)
  have hpublic : ∀ k ∈ d.publicKey, k.length + 1 < lengthLimit := by
    intro k hk
    rw [Option.mem_def.mp hk, Option.getD_some] at hlength
    exact lt_lengthLimit le_rfl (by omega)
  have hcontent : d.content.length < lengthLimit := by
    have hversion : (encodeNatural d.version).length = 3 := by
      rw [encodeNatural_of_lt d.version_lt]
      rfl
    have hle : (Element.encode ⟨octetStringTag, d.privateKey⟩).length ≤
        d.privateKey.length + 129 := length_encode_le hprivate
    have hpublicle := length_publicElement_le hpublic
    apply lt_lengthLimit (k := 2 ^ 127 + 262) _ (by decide)
    rw [content, List.length_append, List.length_append, List.length_append, hversion]
    omega
  have hkey (rest : Octets) : content? octetStringTag
      (Element.encode ⟨octetStringTag, d.privateKey⟩ ++ rest) = some (d.privateKey, rest) :=
    content?_encode (e := ⟨octetStringTag, d.privateKey⟩) rfl hprivate rest
  have hextensions : areExtensions [] = true := by
    rw [areExtensions]
    rfl
  rw [decode?, encode_eq, sole?_encodeSequence hcontent]
  simp only [Option.bind_eq_bind, Option.bind_some, ofContent?, content, List.append_assoc,
    takeVersion?_encodeNatural, halgorithm.take?_encode, hkey, takeContext?_publicElement hpublic]
  obtain ⟨algorithm, privateKey, publicKey⟩ := d
  -- With a public key its octets are read out of the bit string; without one there is no element.
  cases publicKey <;> simp [wholeBits?, hextensions]

theorem takeNatural?_of_takeVersion? {hasPublic : Bool} {b rest : Octets}
    (h : takeVersion? b = some (hasPublic, rest)) :
    takeNatural? b = some (if hasPublic then 1 else 0, rest) := by
  rw [takeVersion?] at h
  split at h
  · next hread =>
    obtain ⟨rfl, rfl⟩ := Prod.mk.inj (Option.some_inj.mp h)
    exact hread
  · next hread =>
    obtain ⟨rfl, rfl⟩ := Prod.mk.inj (Option.some_inj.mp h)
    exact hread
  · cases h

variable {d : PrivateKeyDocument} {b : Octets}

/-- What is read from is a sequence of the version, the algorithm and the key in their written form,
and in the rest of it are the bits of the public key, if there is one. -/
theorem exists_rest_of_decode? (h : decode? b = some d) : ∃ content rest,
    content.length < lengthLimit ∧ b = encodeSequence content ∧
    content = encodeNatural d.version ++ (d.algorithm.encode ++
      (Element.encode ⟨octetStringTag, d.privateKey⟩ ++ rest)) ∧
    ∀ k ∈ d.publicKey, 0 :: k <:+: rest := by
  simp only [decode?, ofContent?, Option.bind_eq_bind, Option.bind_eq_some_iff] at h
  obtain ⟨content, hcontent, ⟨hasPublic, b₁⟩, hversion, ⟨algorithm, b₂⟩, halgorithm,
    ⟨privateKey, b₃⟩, hprivate, ⟨element, b₄⟩, helement, hrest⟩ := h
  obtain ⟨-, hlength, hsequence⟩ := sole?_eq_some_iff.mp hcontent
  obtain ⟨-, -, hfirst⟩ := content?_eq_some_iff.mp
    (content?_of_takeNatural? (takeNatural?_of_takeVersion? hversion))
  obtain rfl : b₁ = _ := AlgorithmIdentifier.eq_encode_of_take? halgorithm
  obtain ⟨-, -, rfl⟩ := content?_eq_some_iff.mp hprivate
  refine ⟨content, b₃, hlength, hsequence, ?_⟩
  -- Without a further element there is no public key; with one, the key is what its bits hold.
  cases element with
  | none =>
    simp only [Option.bind_some, Option.bind_eq_some_iff, Option.guard_eq_some'] at hrest
    obtain ⟨_, rfl, _, -, hd⟩ := hrest
    obtain rfl := Option.some_inj.mp hd
    exact ⟨hfirst, fun _ hk => absurd hk (Option.not_mem_none _)⟩
  | some e =>
    dsimp only at hrest
    split_ifs at hrest with htag
    · simp only [Option.bind_eq_some_iff, Option.map_eq_some_iff, Option.guard_eq_some'] at hrest
      obtain ⟨_, ⟨key, hbits, rfl⟩, _, rfl, _, -, hd⟩ := hrest
      obtain rfl := Option.some_inj.mp hd
      refine ⟨hfirst, fun k hk => ?_⟩
      obtain rfl := Option.some_inj.mp hk
      rw [← wholeBits?_eq_some_iff.mp hbits]
      exact infix_of_takeContext? helement
    · simp at hrest

/-- The parts of a document that is read stand in it as they are. -/
theorem parts_infix_of_decode? (h : decode? b = some d) :
    naturalContent d.version <:+: b ∧ d.privateKey <:+: b ∧ ∀ k ∈ d.publicKey, 0 :: k <:+: b := by
  obtain ⟨content, rest, -, rfl, hcontent, hpublic⟩ := exists_rest_of_decode? h
  -- Each part begins where the one in front of it ends.
  have hall : content <:+: encodeSequence content :=
    Element.content_infix_encode ⟨sequenceTag, content⟩
  have hversion : encodeNatural d.version <:+: content :=
    hcontent ▸ (List.prefix_append _ _).isInfix
  have hbehind : Element.encode ⟨octetStringTag, d.privateKey⟩ ++ rest <:+: content := by
    rw [hcontent, ← List.append_assoc]
    exact (List.suffix_append _ _).isInfix
  have hkey : Element.encode ⟨octetStringTag, d.privateKey⟩ <:+: content :=
    (List.prefix_append _ _).isInfix.trans hbehind
  have hrest : rest <:+: content := (List.suffix_append _ _).isInfix.trans hbehind
  exact ⟨(Element.content_infix_encode ⟨integerTag, _⟩).trans (hversion.trans hall),
    (Element.content_infix_encode ⟨octetStringTag, _⟩).trans (hkey.trans hall),
    fun k hk => (hpublic k hk).trans (hrest.trans hall)⟩

/-- The algorithm and the key leave room for the length of the document to be written. -/
theorem length_lt_of_decode? (h : decode? b = some d) :
    (d.algorithm.encode ++ Element.encode ⟨octetStringTag, d.privateKey⟩).length < lengthLimit := by
  obtain ⟨content, rest, hlength, -, rfl, -⟩ := exists_rest_of_decode? h
  simp only [List.length_append] at hlength ⊢
  omega

/-- Every document has a zero octet in it: the version is zero, or the bits of a public key are
counted. -/
theorem zero_mem_of_decode? (h : decode? b = some d) : 0 ∈ b := by
  obtain ⟨hversion, -, hpublic⟩ := parts_infix_of_decode? h
  cases hkey : d.publicKey with
  | none =>
    have hzero : d.version = 0 := by
      rw [version, hkey]
      rfl
    rw [hzero, naturalContent, Octets.ofNat_zero] at hversion
    exact hversion.subset (List.mem_singleton_self 0)
  | some key => exact (hpublic key hkey).subset List.mem_cons_self

end PrivateKeyDocument

/-- The envelopes are told apart by what stands first in them: a private-key document begins with
its version, and a public-key document with the algorithm, which is a sequence. -/
theorem PublicKeyDocument.decode?_eq_none_of_privateKey {b : Octets} {d : PrivateKeyDocument}
    (h : PrivateKeyDocument.decode? b = some d) : decode? b = none := by
  apply Option.eq_none_iff_forall_ne_some.mpr
  intro e he
  simp only [PrivateKeyDocument.decode?, PrivateKeyDocument.ofContent?, Option.bind_eq_bind,
    Option.bind_eq_some_iff] at h
  simp only [decode?, ofContent?, Option.bind_eq_bind, Option.bind_eq_some_iff] at he
  obtain ⟨content, hcontent, ⟨hasPublic, rest⟩, hversion, -⟩ := h
  obtain ⟨content', hcontent', ⟨algorithm, rest'⟩, halgorithm, -⟩ := he
  obtain rfl := Option.some_inj.mp (hcontent.symm.trans hcontent')
  have hnumber := content?_of_takeNatural?
    (PrivateKeyDocument.takeNatural?_of_takeVersion? hversion)
  obtain ⟨-, -, hnumber⟩ := content?_eq_some_iff.mp hnumber
  have htag := congrArg List.head? (hnumber.symm.trans
    (AlgorithmIdentifier.eq_encode_of_take? halgorithm))
  have hne : integerTag ≠ sequenceTag := by decide
  exact hne (Option.some_inj.mp htag)

end KeyCustody
