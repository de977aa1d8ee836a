import KeyCustody.Proofs.Pem.Document
import KeyCustody.Proofs.PrivateKey
import KeyCustody.Proofs.Text.Utf8

/-!
# Keys in armor

The armor of a private key is read twice, once to find the type of the key and once for the key
itself, and both times it is taken off in the same way. So an armored document is loaded as the
document inside it is. A file that holds a document is never taken for armor, because a document
begins with the tag of a sequence, which is neither white space nor a hyphen.

## Main results

* `PrivateKey.ofArmored_eq_ok_iff` — what is loaded from armor
* `PrivateKey.ofFile_eq_ok_iff`, `PrivateKey.ofFile_of_ofOctets`,
  `PrivateKey.ofFile_ofText_eq_ok_iff` — what is loaded from files
* `PrivateKey.ofText_agrees_ofOctets` — loading with and without armor agree
* `Rsa.PublicKey.ofArmored?_encode` — a public key is read from the armor of its document
-/

namespace KeyCustody

namespace PrivateKeyDocument

variable {b : Octets} {d : PrivateKeyDocument}

/-- A document is one sequence. -/
theorem exists_eq_encode_of_decode? (h : decode? b = some d) :
    ∃ content, content.length < Der.lengthLimit ∧
      b = Der.Element.encode ⟨Der.sequenceTag, content⟩ := by
  obtain ⟨content, hcontent, -⟩ := Option.bind_eq_some_iff.mp h
  obtain ⟨-, hlength, rfl⟩ := Der.sole?_eq_some_iff.mp hcontent
  exact ⟨content, hlength, rfl⟩

theorem isElement_of_decode? (h : decode? b = some d) : Der.isElement b = true := by
  obtain ⟨content, hcontent, -⟩ := Option.bind_eq_some_iff.mp h
  exact Der.isElement_of_sole? hcontent

theorem isArmored_of_decode? (h : decode? b = some d) : Pem.isArmored b = false := by
  obtain ⟨content, -, rfl⟩ := exists_eq_encode_of_decode? h
  rfl

end PrivateKeyDocument

namespace PrivateKey

variable {k : PrivateKey} {b text : Octets}

/-! ## Taking armor off -/

/-- Armor around a document changes nothing about what is loaded from it, or about why it is not. -/
theorem ofArmored_of_isArmor (h : Pem.IsArmor ⟨Pem.privateKeyLabel, b⟩ text) :
    ofArmored text = ofOctets b := by
  have hdecode := h.decode?_eq
  have hdocument : PrivateKeyDocument.ofArmored? text = PrivateKeyDocument.decode? b := by
    simp [PrivateKeyDocument.ofArmored?, hdecode]
  rw [ofArmored, detectArmoredType, hdecode, hdocument]
  dsimp only
  rw [if_pos rfl]
  rfl

/-- A key is loaded from the armored document of a private key that the text spells, as it is loaded
from the octets in the armor. -/
theorem ofArmored_eq_ok_iff : ofArmored text = .ok k ↔
    ∃ d, Pem.IsArmor ⟨Pem.privateKeyLabel, d⟩ text ∧ ofOctets d = .ok k := by
  constructor
  · intro h
    -- The first reading, for the type, already tells that the text is armored, and the label.
    obtain ⟨type, htype, -⟩ := Outcome.bind_eq_ok_iff.mp h
    rw [Outcome.mapError_eq_ok_iff, detectArmoredType] at htype
    cases hdecode : Pem.decode? text with
    | none =>
      rw [hdecode] at htype
      cases htype
    | some d =>
      obtain ⟨label, body⟩ := d
      rw [hdecode] at htype
      dsimp only at htype
      split_ifs at htype with hlabel
      obtain rfl := hlabel
      have harmor := Pem.decode?_eq_some_iff.mp hdecode
      exact ⟨body, harmor, (ofArmored_of_isArmor harmor).symm.trans h⟩
  · rintro ⟨d, harmor, hd⟩
    rw [ofArmored_of_isArmor harmor, hd]

/-- What is loaded from armor depends on the document in it and on nothing else. -/
theorem ofArmored_congr {other : Octets} (h : Pem.decode? text = Pem.decode? other) :
    ofArmored text = ofArmored other := by
  have hdocument :
      PrivateKeyDocument.ofArmored? text = PrivateKeyDocument.ofArmored? other := by
    rw [PrivateKeyDocument.ofArmored?, PrivateKeyDocument.ofArmored?, h]
  rw [ofArmored, ofArmored, detectArmoredType, detectArmoredType, h, hdocument]

theorem ofArmored_of_decode?_eq_none (h : Pem.decode? text = none) :
    ofArmored text = .error (.importing .armor) := by
  rw [ofArmored, detectArmoredType, h]
  rfl

theorem isElement_of_ofOctets (h : ofOctets b = .ok k) : Der.isElement b = true := by
  obtain ⟨d, hd, -⟩ := ofOctets_eq_ok_iff.mp h
  exact PrivateKeyDocument.isElement_of_decode? hd

/-! ## Files -/

/-- Octets that do not begin with the tag of a sequence are no document. -/
theorem ofOctets_of_head?_ne (h : b.head? ≠ some Der.sequenceTag) :
    ofOctets b = .error (.importing .document) := by
  have hdecode : PrivateKeyDocument.decode? b = none := by
    apply Option.eq_none_iff_forall_ne_some.mpr
    intro d hd
    obtain ⟨content, -, rfl⟩ := PrivateKeyDocument.exists_eq_encode_of_decode? hd
    exact h rfl
  rw [ofOctets, detectType, hdecode]
  rfl

theorem isArmored_of_ofOctets (h : ofOctets b = .ok k) : Pem.isArmored b = false := by
  obtain ⟨d, hd, -⟩ := ofOctets_eq_ok_iff.mp h
  exact PrivateKeyDocument.isArmored_of_decode? hd

/-- From a file that looks armored a key is loaded as from its text, and from any other as from its
octets. -/
theorem ofFile_eq_ok_iff : ofFile b = .ok k ↔
    if Pem.isArmored b then (∃ s, Octets.ofText s = b) ∧ ofArmored b = .ok k
    else ofOctets b = .ok k := by
  rw [ofFile]
  split_ifs
  · constructor
    · intro h
      cases htext : Octets.toText? b with
      | none =>
        rw [htext] at h
        cases h
      | some s =>
        rw [htext] at h
        obtain rfl := Octets.toText?_eq_some_iff.mp htext
        exact ⟨⟨s, rfl⟩, h⟩
    · rintro ⟨⟨s, rfl⟩, h⟩
      rw [Octets.toText?_eq_some_iff.mpr rfl]
      exact h
  · exact Iff.rfl

/-- A file that holds a document is read as one. -/
theorem ofFile_of_ofOctets (h : ofOctets b = .ok k) : ofFile b = .ok k := by
  rw [ofFile, if_neg (by rw [isArmored_of_ofOctets h]; decide), h]

/-- A file that looks armored is read as the text it holds. -/
theorem ofFile_of_isArmored {s : String} (h : Pem.isArmored (Octets.ofText s)) :
    ofFile (Octets.ofText s) = ofText s := by
  rw [ofFile, if_pos h, Octets.toText?_eq_some_iff.mpr rfl]

/-- Armor is no document: a document has a zero octet in it. -/
theorem ofOctets_ne_ok_of_isArmor {d : Pem.Document} (h : Pem.IsArmor d b) :
    ofOctets b ≠ .ok k := by
  intro hload
  obtain ⟨document, hdocument, -⟩ := ofOctets_eq_ok_iff.mp hload
  exact h.zero_notMem (PrivateKeyDocument.zero_mem_of_decode? hdocument)

/-- From a file that holds the text of a key, that key is loaded if the file looks armored, and
otherwise none. -/
theorem ofFile_ofText_eq_ok_iff {s : String} (h : ofText s = .ok k) {other : PrivateKey} :
    ofFile (Octets.ofText s) = .ok other ↔ other = k ∧ Pem.isArmored (Octets.ofText s) := by
  by_cases harmored : Pem.isArmored (Octets.ofText s)
  · rw [ofFile_of_isArmored harmored, h, Except.ok.injEq]
    exact ⟨fun hk => ⟨hk.symm, harmored⟩, fun hk => hk.1.symm⟩
  · obtain ⟨d, harmor, -⟩ := ofArmored_eq_ok_iff.mp h
    rw [ofFile, if_neg harmored]
    exact iff_of_false (ofOctets_ne_ok_of_isArmor harmor) fun hk => harmored hk.2

theorem isLabel_privateKeyLabel : Pem.IsLabel Pem.privateKeyLabel := by
  decide

/-- The canonical armor of a document from which a key is loaded is a text, and that key is loaded
from it. -/
theorem exists_ofText_encode (h : ofOctets b = .ok k) :
    ∃ t, Octets.ofText t = Pem.encode ⟨Pem.privateKeyLabel, b⟩ ∧ ofText t = .ok k := by
  have helement := isElement_of_ofOctets h
  obtain ⟨t, ht⟩ := Octets.exists_ofText_of_ascii
    (Pem.lt_of_mem_encode (d := ⟨Pem.privateKeyLabel, b⟩) isLabel_privateKeyLabel helement)
  refine ⟨t, ht, ?_⟩
  rw [ofText, ht]
  exact ofArmored_eq_ok_iff.mpr ⟨b, Pem.isArmor_encode isLabel_privateKeyLabel helement, h⟩

theorem ofFile_encode (h : ofOctets b = .ok k) :
    ofFile (Pem.encode ⟨Pem.privateKeyLabel, b⟩) = .ok k := by
  obtain ⟨t, ht, hload⟩ := exists_ofText_encode h
  rw [← ht, ofFile_of_isArmored (ht ▸ Pem.isArmored_encode _), hload]

/-- A text is loaded as a key exactly if it spells an armored document of a private key from whose
octets that key is loaded. The canonical armor of every document that is loaded is such a text, from
which the same key is loaded, also through a file; and a file that holds the document itself is
never taken for armor. -/
theorem ofText_agrees_ofOctets :
    (∀ (t : String) (k : PrivateKey), ofText t = .ok k ↔
      ∃ d, Pem.IsArmor ⟨Pem.privateKeyLabel, d⟩ (Octets.ofText t) ∧ ofOctets d = .ok k) ∧
    ∀ (d : Octets) (k : PrivateKey), ofOctets d = .ok k →
      (∃ t, Octets.ofText t = Pem.encode ⟨Pem.privateKeyLabel, d⟩ ∧ ofText t = .ok k) ∧
      ofFile (Pem.encode ⟨Pem.privateKeyLabel, d⟩) = .ok k ∧
      Pem.isArmored d = false ∧ ofFile d = .ok k :=
  ⟨fun _ _ => ofArmored_eq_ok_iff, fun _ _ h =>
    ⟨exists_ofText_encode h, ofFile_encode h, isArmored_of_ofOctets h, ofFile_of_ofOctets h⟩⟩

/-- The document of an Ed25519 key, octet by octet. The public key need not be in it. -/
theorem ofOctets_ed25519_sevens :
    ofOctets ([0x30, 0x2e, 0x02, 0x01, 0x00, 0x30, 0x05, 0x06, 0x03, 0x2b, 0x65, 0x70, 0x04, 0x22,
      0x04, 0x20] ++ List.replicate 32 7) = .ok (ed25519 ⟨List.replicate 32 7, rfl⟩) := by
  decide_cbv

/-- A document of 48 octets, whose characters are one full line. -/
theorem ofText_agrees_ofOctets_full_line :
    let d : Octets := [0x30, 0x2e, 0x02, 0x01, 0x00, 0x30, 0x05, 0x06, 0x03, 0x2b, 0x65, 0x70, 0x04,
      0x22, 0x04, 0x20] ++ List.replicate 32 7
    (Base64.encode d).length = 64 ∧ ∃ k, ofOctets d = .ok k ∧
      (∃ t, Octets.ofText t = Pem.encode ⟨Pem.privateKeyLabel, d⟩ ∧ ofText t = .ok k) ∧
      ofFile (Pem.encode ⟨Pem.privateKeyLabel, d⟩) = .ok k ∧ ofFile d = .ok k := by
  intro d
  let k : PrivateKey := ed25519 ⟨List.replicate 32 7, rfl⟩
  have hload : ofOctets d = .ok k := ofOctets_ed25519_sevens
  obtain ⟨htext, harmored, -, hplain⟩ := ofText_agrees_ofOctets.2 d k hload
  exact ⟨by decide, k, hload, htext, harmored, hplain⟩

end PrivateKey

/-! ## Public keys -/

theorem Pem.isLabel_publicKeyLabel : Pem.IsLabel Pem.publicKeyLabel := by
  decide

namespace PublicKeyDocument

variable {b : Octets} {d : PublicKeyDocument}

theorem isElement_of_decode? (h : decode? b = some d) : Der.isElement b = true := by
  obtain ⟨content, hcontent, -⟩ := Option.bind_eq_some_iff.mp h
  exact Der.isElement_of_sole? hcontent

/-- Armor around a document changes nothing about what is read from it. -/
theorem ofArmored?_of_isArmor {text : Octets} (h : Pem.IsArmor ⟨Pem.publicKeyLabel, b⟩ text) :
    ofArmored? text = decode? b := by
  have hdecode := h.decode?_eq
  simp [ofArmored?, hdecode]

theorem isArmor_encode (h : Der.isElement b = true) :
    Pem.IsArmor ⟨Pem.publicKeyLabel, b⟩ (Pem.encode ⟨Pem.publicKeyLabel, b⟩) :=
  Pem.isArmor_encode Pem.isLabel_publicKeyLabel h

/-- The canonical armor is a text. -/
theorem exists_ofText_encode (h : Der.isElement b = true) :
    ∃ t, Octets.ofText t = Pem.encode ⟨Pem.publicKeyLabel, b⟩ :=
  Octets.exists_ofText_of_ascii (Pem.lt_of_mem_encode Pem.isLabel_publicKeyLabel h)

end PublicKeyDocument

namespace Rsa.PublicKey

variable {key : PublicKey}

theorem isElement_encode (h : key.bits ≤ maxBits) : Der.isElement key.encode = true := by
  have hread := decode?_encode h
  rw [decode?, Option.bind_eq_bind, Option.bind_eq_some_iff] at hread
  obtain ⟨d, hdecode, -⟩ := hread
  exact PublicKeyDocument.isElement_of_decode? hdecode

/-- A public key is read from the armor of its document. -/
theorem ofArmored?_encode (h : key.bits ≤ maxBits) :
    ofArmored? (Pem.encode ⟨Pem.publicKeyLabel, key.encode⟩) = some key := by
  have harmor := PublicKeyDocument.isArmor_encode (isElement_encode h)
  rw [ofArmored?, PublicKeyDocument.ofArmored?_of_isArmor harmor]
  exact decode?_encode h

end Rsa.PublicKey

end KeyCustody
