import Mathlib.Logic.Function.Basic
import KeyCustody.Text.Hex

/-!
# Hexadecimal text is read back

Two digits spell one octet and no other, so octets are read back from their text, and different
octets have different texts.

## Main results

* `Hex.decode?_encode` — what was written is read back
* `Hex.encode_injective` — different octets are written differently
* `Hex.isDigit_of_mem_encode` — only lowercase digits are written
-/

namespace KeyCustody.Hex

theorem digitValue?_digit : ∀ n < 16, digitValue? (digit n) = some n := by
  decide

/-- The two digits of an octet are read first, whatever follows them. -/
theorem decodeFrom_digits (x : UInt8) (gathered : Octets) (rest : List Char) :
    decodeFrom gathered (digit (x.toNat / 16) :: digit (x.toNat % 16) :: rest) =
      decodeFrom (x :: gathered) rest := by
  have hx := x.toNat_lt
  have hhigh : digitValue? (digit (x.toNat / 16)) = some (x.toNat / 16) :=
    digitValue?_digit _ (by omega)
  have hlow : digitValue? (digit (x.toNat % 16)) = some (x.toNat % 16) :=
    digitValue?_digit _ (Nat.mod_lt _ (by decide))
  have hvalue : UInt8.ofNat (x.toNat / 16 * 16 + x.toNat % 16) = x := by
    rw [Nat.div_add_mod', UInt8.ofNat_toNat]
  simp only [decodeFrom, hhigh, hlow, hvalue, Option.bind_eq_bind, Option.bind_some]

theorem decodeFrom_encodeChars (gathered b : Octets) :
    decodeFrom gathered (encodeChars b) = some (gathered.reverse ++ b) := by
  induction b generalizing gathered with
  | nil => simp [encodeChars, decodeFrom]
  | cons x b ih =>
    have hcons : encodeChars (x :: b) =
        digit (x.toNat / 16) :: digit (x.toNat % 16) :: encodeChars b := rfl
    rw [hcons, decodeFrom_digits, ih]
    simp

theorem decode?_encode (b : Octets) : decode? (encode b) = some b := by
  rw [decode?, encode, String.toList_ofList, decodeFrom_encodeChars]
  rfl

theorem encode_injective : Function.Injective encode := by
  intro a b h
  have hread := congrArg decode? h
  rw [decode?_encode, decode?_encode] at hread
  exact Option.some_inj.mp hread

/-- Nothing but lowercase digits is written. -/
theorem isDigit_of_mem_encode {b : Octets} :
    ∀ c ∈ (encode b).toList, '0' ≤ c ∧ c ≤ '9' ∨ 'a' ≤ c ∧ c ≤ 'f' := by
  have hdigit : ∀ n < 16, '0' ≤ digit n ∧ digit n ≤ '9' ∨ 'a' ≤ digit n ∧ digit n ≤ 'f' := by
    decide
  intro c hc
  rw [encode, String.toList_ofList, encodeChars, List.mem_flatMap] at hc
  obtain ⟨x, -, hx⟩ := hc
  have hlt := x.toNat_lt
  simp only [List.mem_cons, List.not_mem_nil, or_false] at hx
  rcases hx with rfl | rfl
  · exact hdigit _ (by omega)
  · exact hdigit _ (Nat.mod_lt _ (by decide))

end KeyCustody.Hex
