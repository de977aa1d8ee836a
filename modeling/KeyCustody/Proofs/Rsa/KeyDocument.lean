import KeyCustody.Proofs.Der.KeyDocument
import KeyCustody.Proofs.Modular
import KeyCustody.Rsa.Key

/-!
# Reading back documents of RSA keys

A public key is read back from its own document if its modulus is within the bound for imported
keys. The conditions on the numbers need no second look: they are part of the key.

Of the nine numbers in a private key's document all but the private exponent lie below the modulus
or are remainders of it, so a document that is written anew is not much longer than one that was
read.

## Main results

* `Rsa.naturals?_flatMap_encodeNatural` — a row of natural numbers
* `Rsa.PublicKey.decode?_encode` — the public key in its envelope
* `Rsa.PrivateKey.document?_isSome_iff` — which private keys have a document
* `Rsa.PrivateKey.ofDocument?_document?` — the private key from its own document
* `Rsa.PrivateKey.byteLength_le_of_ofDocument?` — the numbers of a key that was read
-/

namespace KeyCustody.Rsa

open Der

theorem naturals?_flatMap_encodeNatural {ns : List Nat}
    (h : ∀ n ∈ ns, (naturalContent n).length < lengthLimit) :
    naturals? (ns.flatMap encodeNatural) = some ns := by
  induction ns with
  | nil =>
    rw [naturals?]
    rfl
  | cons n ns ih =>
    have hn := h n List.mem_cons_self
    have hns : naturals? (ns.flatMap encodeNatural) = some ns :=
      ih fun m hm => h m (List.mem_cons_of_mem n hm)
    have htake := take?_encodeNatural hn (ns.flatMap encodeNatural)
    have hne : encodeNatural n ++ ns.flatMap encodeNatural ≠ [] := List.cons_ne_nil _ _
    rw [List.flatMap_cons, naturals?, if_neg hne]
    -- The recursion carries a proof of what was read, so the match is split and not rewritten.
    split
    · next e rest hread =>
      rw [htake, Option.some_inj, Prod.mk.injEq] at hread
      obtain ⟨rfl, rfl⟩ := hread
      simp [natural?_naturalContent, hns]
    · next hread => simp [htake] at hread

/-- A row of numbers of bounded length is no longer than that many elements can be. -/
theorem length_flatMap_encodeNatural_le {ns : List Nat} {length : Nat} (hlength : length < 2 ^ 127)
    (h : ∀ n ∈ ns, Octets.byteLength n ≤ length) :
    (ns.flatMap encodeNatural).length ≤ ns.length * (length + 130) := by
  induction ns with
  | nil => simp
  | cons n ns ih =>
    have hn := h n List.mem_cons_self
    have hcontent := length_naturalContent_le n
    have hfirst := length_encodeNatural_le (n := n) (lt_lengthLimit (k := 2 ^ 127) (by omega)
      (by decide))
    have hrest := ih fun m hm => h m (List.mem_cons_of_mem n hm)
    rw [List.flatMap_cons, List.length_append, List.length_cons, Nat.add_one_mul]
    omega

theorem byteLength_le_of_mem {ns : List Nat} {n : Nat} (h : n ∈ ns) :
    Octets.byteLength n ≤ (ns.flatMap encodeNatural).length := by
  calc Octets.byteLength n ≤ (naturalContent n).length := byteLength_le_length_naturalContent n
    _ ≤ (encodeNatural n).length :=
      (Element.content_infix_encode ⟨integerTag, naturalContent n⟩).length_le
    _ ≤ (ns.flatMap encodeNatural).length :=
      (List.sublist_flatten_of_mem (List.mem_map_of_mem h)).length_le

/-- Only rows of written numbers are read. -/
theorem naturals?_eq_some {b : Octets} {ns : List Nat} (h : naturals? b = some ns) :
    b = ns.flatMap encodeNatural := by
  fun_induction naturals? b generalizing ns with
  | case1 =>
    obtain rfl := Option.some_inj.mp h
    rfl
  | case2 b hb e rest hread htag ih =>
    simp only [Option.bind_eq_bind, Option.bind_eq_some_iff] at h
    obtain ⟨n, hn, ms, hms, hns⟩ := h
    obtain rfl := Option.some_inj.mp hns
    obtain ⟨-, -, rfl⟩ := take?_eq_some_iff.mp hread
    obtain ⟨tag, content⟩ := e
    obtain rfl : tag = integerTag := htag
    obtain rfl : content = naturalContent n := natural?_eq_some_iff.mp hn
    rw [List.flatMap_cons, ← ih hms]
    rfl
  | case3 b hb e rest hread htag => cases h
  | case4 b hb hread => cases h

theorem algorithm_isWritten : algorithm.IsWritten where
  arcs := by decide
  parameters := by
    rintro e ⟨⟩
    exact ⟨by decide, lt_lengthLimit (k := 0) le_rfl (by decide)⟩
  length_content := lt_lengthLimit (k := 13) (by decide) (by decide)

theorem length_encode_algorithm : algorithm.encode.length = 15 := by decide

namespace PublicKey

variable {k : PublicKey}

theorem ofNumbers?_self (k : PublicKey) : ofNumbers? k.modulus k.exponent = some k :=
  dif_pos ⟨k.modulus_odd, k.exponent_odd, k.two_le_exponent, k.exponent_le, k.exponent_lt_modulus⟩

theorem size_le_of_bits_le (h : k.bits ≤ maxBits) : k.size ≤ 512 := by
  have hmodulus : k.modulus ≠ 0 := by
    have := k.exponent_lt_modulus
    omega
  simp only [bits, maxBits, Octets.bitLength, if_neg hmodulus] at h
  simp only [size, Octets.byteLength, if_neg hmodulus]
  omega

theorem le_modulus_of_mem_numbers {n : Nat} (hn : n ∈ [k.modulus, k.exponent]) :
    n ≤ k.modulus := by
  simp only [List.mem_cons, List.not_mem_nil, or_false] at hn
  rcases hn with rfl | rfl
  · exact le_rfl
  · exact k.exponent_lt_modulus.le

/-- The written numbers of a key. -/
def numbers (k : PublicKey) : Octets := [k.modulus, k.exponent].flatMap encodeNatural

theorem publicKey_document (k : PublicKey) :
    k.document.publicKey = encodeSequence k.numbers := rfl

/-- Only keys within the bound are read. -/
theorem bits_le_of_ofDocument? {d : PublicKeyDocument} (h : ofDocument? d = some k) :
    k.bits ≤ maxBits := by
  rw [ofDocument?] at h
  simp only [Option.bind_eq_bind, Option.bind_eq_some_iff] at h
  obtain ⟨_, -, _, -, numbers, -, h⟩ := h
  split at h
  · obtain ⟨read, -, h⟩ := Option.bind_eq_some_iff.mp h
    split_ifs at h with hbits
    exact Option.some_inj.mp h ▸ hbits
  · cases h

theorem bits_le_of_decode? {b : Octets} (h : decode? b = some k) : k.bits ≤ maxBits := by
  obtain ⟨d, -, hd⟩ := Option.bind_eq_some_iff.mp h
  exact bits_le_of_ofDocument? hd

section Bounded

variable (h : k.bits ≤ maxBits)

include h

theorem length_numbers_le : k.numbers.length ≤ 1284 := by
  have hle : k.numbers.length ≤ 2 * (512 + 130) := by
    apply length_flatMap_encodeNatural_le (by decide)
    intro n hn
    exact (Octets.byteLength_mono (le_modulus_of_mem_numbers hn)).trans (size_le_of_bits_le h)
  omega

theorem length_publicKey_document_le : k.document.publicKey.length ≤ 1413 := by
  have hnumbers := length_numbers_le h
  have hlength := length_encodeSequence_le (lt_lengthLimit hnumbers (by decide))
  rw [publicKey_document]
  omega

theorem naturals?_numbers : naturals? k.numbers = some [k.modulus, k.exponent] := by
  apply naturals?_flatMap_encodeNatural
  intro n hn
  have hsize := (Octets.byteLength_mono (le_modulus_of_mem_numbers hn)).trans (size_le_of_bits_le h)
  exact lt_lengthLimit ((length_naturalContent_le n).trans (Nat.succ_le_succ hsize)) (by decide)

theorem ofDocument?_document : ofDocument? k.document = some k := by
  have hread : sole? sequenceTag k.document.publicKey = some k.numbers :=
    sole?_encodeSequence (lt_lengthLimit (length_numbers_le h) (by decide))
  have halgorithm : k.document.algorithm = algorithm := rfl
  simp [ofDocument?, halgorithm, hread, naturals?_numbers h, ofNumbers?_self, h]

/-- A key within the bound for imported keys is read back from its document. -/
theorem decode?_encode : decode? k.encode = some k := by
  have hkey := length_publicKey_document_le h
  have hdocument : PublicKeyDocument.decode? k.encode = some k.document := by
    apply PublicKeyDocument.decode?_encode algorithm_isWritten
    change algorithm.encode.length + k.document.publicKey.length < 2 ^ 127
    rw [length_encode_algorithm]
    omega
  rw [decode?, hdocument]
  exact ofDocument?_document h

end Bounded

end PublicKey

/-! ## Private keys -/

namespace PrivateKey

variable {k : PrivateKey}

theorem ofNumbers?_self (k : PrivateKey) : ofNumbers? k.publicKey.modulus k.publicKey.exponent
    k.exponent k.p k.q = some k := by
  rw [ofNumbers?, PublicKey.ofNumbers?_self]
  exact dif_pos ⟨k.one_lt_p, k.one_lt_q, k.product, k.inverse_p, k.inverse_q⟩

/-- A key is written if there is a coefficient to write, which is if its factors are coprime. -/
theorem document?_isSome_iff (k : PrivateKey) : k.document?.isSome ↔ Nat.Coprime k.q k.p := by
  rw [← Modular.inverse?_isSome_iff, ← coefficient?, document?]
  cases k.coefficient? <;> simp

/-- The written numbers of a key with a given coefficient. -/
def numbers (k : PrivateKey) (coefficient : Nat) : List Nat :=
  [0, k.publicKey.modulus, k.publicKey.exponent, k.exponent, k.p, k.q, k.exponent % (k.p - 1),
    k.exponent % (k.q - 1), coefficient]

theorem document?_eq_some_iff {d : PrivateKeyDocument} : k.document? = some d ↔
    ∃ coefficient, k.coefficient? = some coefficient ∧
      d = ⟨algorithm, encodeNaturals (k.numbers coefficient), none⟩ := by
  rw [document?]
  cases k.coefficient? <;> simp [numbers, eq_comm]

theorem p_le_modulus (k : PrivateKey) : k.p ≤ k.publicKey.modulus := by
  rw [← k.product]
  exact Nat.le_mul_of_pos_right _ (Nat.zero_lt_of_lt k.one_lt_q)

theorem q_le_modulus (k : PrivateKey) : k.q ≤ k.publicKey.modulus := by
  rw [← k.product]
  exact Nat.le_mul_of_pos_left _ (Nat.zero_lt_of_lt k.one_lt_p)

/-- No written number is longer than both the modulus and the private exponent. -/
theorem le_of_mem_numbers {coefficient : Nat} (h : k.coefficient? = some coefficient) {n : Nat}
    (hn : n ∈ k.numbers coefficient) : n ≤ k.publicKey.modulus ∨ n ≤ k.exponent := by
  have hcoefficient := (Modular.inverse?_lt (Nat.zero_lt_of_lt k.one_lt_p) h).le
  simp only [numbers, List.mem_cons, List.not_mem_nil, or_false] at hn
  rcases hn with rfl | rfl | rfl | rfl | rfl | rfl | rfl | rfl | rfl
  · exact .inl (Nat.zero_le _)
  · exact .inl le_rfl
  · exact .inl k.publicKey.exponent_lt_modulus.le
  · exact .inr le_rfl
  · exact .inl k.p_le_modulus
  · exact .inl k.q_le_modulus
  · exact .inr (Nat.mod_le _ _)
  · exact .inr (Nat.mod_le _ _)
  · exact .inl (hcoefficient.trans k.p_le_modulus)

theorem ofNumbers?_eq_some {n e x p q : Nat} (h : ofNumbers? n e x p q = some k) :
    k.publicKey.modulus = n ∧ k.publicKey.exponent = e ∧ k.exponent = x := by
  simp only [ofNumbers?, PublicKey.ofNumbers?, Option.bind_eq_bind, Option.bind_eq_some_iff] at h
  obtain ⟨publicKey, hpublic, hprivate⟩ := h
  split_ifs at hpublic
  split_ifs at hprivate
  obtain rfl := Option.some_inj.mp hpublic
  obtain rfl := Option.some_inj.mp hprivate
  exact ⟨rfl, rfl, rfl⟩

/-- The numbers of a key that is read are no longer than what they are read from. -/
theorem byteLength_le_of_ofDocument? {d : PrivateKeyDocument} (h : ofDocument? d = some k) :
    Octets.byteLength k.publicKey.modulus ≤ d.privateKey.length ∧
      Octets.byteLength k.exponent ≤ d.privateKey.length := by
  simp only [ofDocument?, Option.bind_eq_bind, Option.bind_eq_some_iff] at h
  obtain ⟨-, -, content, hcontent, ns, hns, hkey⟩ := h
  have hle {n : Nat} (hn : n ∈ ns) : Octets.byteLength n ≤ d.privateKey.length := by
    rw [naturals?_eq_some hns] at hcontent
    exact (byteLength_le_of_mem hn).trans (infix_of_sole? hcontent).length_le
  split at hkey
  · obtain ⟨hmodulus, -, hexponent⟩ := ofNumbers?_eq_some hkey
    rw [hmodulus, hexponent]
    exact ⟨hle (by simp), hle (by simp)⟩
  · cases hkey

theorem algorithm_of_ofDocument? {d : PrivateKeyDocument} (h : ofDocument? d = some k) :
    d.algorithm = algorithm := by
  simp only [ofDocument?, Option.bind_eq_bind, Option.bind_eq_some_iff, Option.guard_eq_some'] at h
  exact h.choose_spec.1

/-- The public numbers are among those that a key is read from, so the inner document of the public
key is the shorter one. -/
theorem length_publicKey_lt_of_ofDocument? {d : PrivateKeyDocument} (h : ofDocument? d = some k) :
    k.publicKey.document.publicKey.length < d.privateKey.length := by
  simp only [ofDocument?, Option.bind_eq_bind, Option.bind_eq_some_iff] at h
  obtain ⟨-, -, content, hcontent, ns, hns, hkey⟩ := h
  obtain ⟨-, -, hprivate⟩ := sole?_eq_some_iff.mp hcontent
  split at hkey
  · next n e x p q _ _ _ =>
    obtain ⟨hmodulus, hexponent, -⟩ := ofNumbers?_eq_some hkey
    have hversion : 1 ≤ (encodeNatural 0).length := Nat.succ_le_succ (Nat.zero_le _)
    have hlength : k.publicKey.numbers.length + 1 ≤ content.length := by
      rw [naturals?_eq_some hns, PublicKey.numbers, hmodulus, hexponent]
      simp only [List.flatMap_cons, List.flatMap_nil, List.length_append, List.length_nil]
      omega
    rw [PublicKey.publicKey_document, hprivate]
    exact length_encode_add_le (e := ⟨sequenceTag, _⟩) (f := ⟨sequenceTag, content⟩) hlength
  · cases hkey

/-- A document of nine numbers that a machine can count the octets of is read back, and the last
three of them are not looked at. -/
theorem ofDocument?_encodeNaturals {n e x p q dp dq coefficient : Nat}
    (h : ∀ m ∈ [0, n, e, x, p, q, dp, dq, coefficient], Octets.byteLength m ≤ 2 ^ 64) :
    let d : PrivateKeyDocument :=
      ⟨algorithm, encodeNaturals [0, n, e, x, p, q, dp, dq, coefficient], none⟩
    PrivateKeyDocument.decode? d.encode = some d ∧ ofDocument? d = ofNumbers? n e x p q := by
  intro d
  have hnumbers : ([0, n, e, x, p, q, dp, dq, coefficient].flatMap encodeNatural).length ≤
      9 * (2 ^ 64 + 130) := length_flatMap_encodeNatural_le (by decide) h
  have hlimit := lt_lengthLimit hnumbers (by decide)
  have hlength := length_encodeSequence_le hlimit
  constructor
  · apply PrivateKeyDocument.decode?_encode algorithm_isWritten
    change algorithm.encode.length + (encodeNaturals _).length + 0 < 2 ^ 127
    rw [length_encode_algorithm, encodeNaturals]
    omega
  · have hread := naturals?_flatMap_encodeNatural fun m hm =>
      lt_lengthLimit ((length_naturalContent_le m).trans (Nat.succ_le_succ (h m hm))) (by decide)
    simp only [d, ofDocument?, encodeNaturals, sole?_encodeSequence hlimit, hread, guard_true,
      Option.bind_eq_bind, Option.bind_some, Option.pure_def]

/-- A key whose numbers a machine can count the octets of is read back from its own document. -/
theorem ofDocument?_document? {d : PrivateKeyDocument} (h : k.document? = some d)
    (hmodulus : Octets.byteLength k.publicKey.modulus < 2 ^ 64)
    (hexponent : Octets.byteLength k.exponent < 2 ^ 64) :
    PrivateKeyDocument.decode? d.encode = some d ∧ ofDocument? d = some k := by
  obtain ⟨coefficient, hcoefficient, rfl⟩ := document?_eq_some_iff.mp h
  have hnumber : ∀ n ∈ k.numbers coefficient, Octets.byteLength n ≤ 2 ^ 64 := by
    intro n hn
    rcases le_of_mem_numbers hcoefficient hn with hle | hle
    · exact (Octets.byteLength_mono hle).trans hmodulus.le
    · exact (Octets.byteLength_mono hle).trans hexponent.le
  obtain ⟨hdecode, hread⟩ := ofDocument?_encodeNaturals hnumber
  exact ⟨hdecode, hread.trans k.ofNumbers?_self⟩

end PrivateKey

end KeyCustody.Rsa
