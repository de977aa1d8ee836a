import KeyCustody.Cipher.Aes
import Mathlib.Data.FinEnum
import Mathlib.Data.LawfulXor.Basic

/-!
# The block cipher is a permutation

Decryption undoes encryption and encryption undoes decryption, under any list of round keys. Each
of the four steps of a round has an inverse of its own; the rounds then follow by induction on the
round keys, since both recursions run over the same list.

Mixing is linear over the field of 256 elements, and all that is used of doubling is that it is
additive: four mixings leave every column as it was.

## Main results

* `Aes.unsubstitute_substitute`, `Aes.substitute_unsubstitute` — the two tables are inverse
* `Aes.Column.unmix_mix`, `Aes.Column.mix_unmix` — mixing is undone
* `Aes.decrypt_encrypt`, `Aes.encrypt_decrypt` — so is the cipher
-/

namespace KeyCustody.Aes

/-! ## Substitution -/

set_option maxRecDepth 4096 in
/-- The inverse table holds, at each entry of the substitution table, the index of the entry. -/
theorem map_unsubstitute_substitutionTable :
    substitutionTable.toList.map unsubstitute = (List.range 256).map UInt8.ofNat := by
  decide

theorem unsubstitute_substitute (x : UInt8) : unsubstitute (substitute x) = x := by
  -- One pass over the table; looking up 256 octets one by one would run through it each time.
  have htable := map_unsubstitute_substitutionTable
  have hcount : substitutionTable.size = 256 := by simpa using congrArg List.length htable
  have hsize : x.toNat < substitutionTable.size := hcount ▸ x.toNat_lt
  have hentry := congrArg (fun entries => entries[x.toNat]?) htable
  simp only [List.getElem?_map, Array.getElem?_toList, Array.getElem?_eq_getElem hsize,
    List.getElem?_range x.toNat_lt, Option.map_some, Option.some_inj, UInt8.ofNat_toNat] at hentry
  rwa [substitute, Array.getD_eq_getD_getElem?, Array.getElem?_eq_getElem hsize, Option.getD_some]

/-- There are as many entries as octets, so the tables are inverse in the other order too. -/
theorem substitute_unsubstitute (x : UInt8) : substitute (unsubstitute x) = x :=
  Function.LeftInverse.rightInverse_of_card_le unsubstitute_substitute le_rfl x

/-! ## Mixing -/

private theorem xor_left_comm (x y z : UInt8) : x ^^^ (y ^^^ z) = y ^^^ (x ^^^ z) := by
  rw [← UInt8.xor_assoc, UInt8.xor_comm x, UInt8.xor_assoc]

/-- The bit that doubling carries out. -/
private theorem first_bit (x : UInt8) :
    x < 0x80 ∧ x >>> 7 = 0 ∨ ¬ x < 0x80 ∧ x >>> 7 = 1 := by
  have hbound := x.toNat_lt
  simp only [UInt8.lt_iff_toNat_lt, ← UInt8.toNat_inj, UInt8.toNat_shiftRight, UInt8.reduceToNat,
    Nat.reduceMod, Nat.shiftRight_eq_div_pow]
  omega

private theorem double_eq (x : UInt8) :
    double x = (x <<< 1) ^^^ (if x >>> 7 = 0 then 0 else 0x1b) := by
  rcases first_bit x with ⟨hx, hbit⟩ | ⟨hx, hbit⟩ <;> simp [double, hx, hbit]

/-- Doubling is additive: the shift is, and so is the bit that it carries out. -/
theorem double_xor (x y : UInt8) : double (x ^^^ y) = double x ^^^ double y := by
  have hx : x >>> 7 = 0 ∨ x >>> 7 = 1 := (first_bit x).imp And.right And.right
  have hy : y >>> 7 = 0 ∨ y >>> 7 = 1 := (first_bit y).imp And.right And.right
  rw [double_eq, double_eq x, double_eq y, UInt8.shiftLeft_xor, UInt8.shiftRight_xor]
  rcases hx with hx | hx <;> rcases hy with hy | hy <;>
    simp [hx, hy, UInt8.xor_assoc, UInt8.xor_comm, xor_left_comm]

namespace Column

/-- The sum of the octets of a column. -/
def total (x : Column) : UInt8 := x.a ^^^ x.b ^^^ x.c ^^^ x.d

/-- Mixing adds to each octet the total and the double of its sum with the next octet. -/
theorem mix_eq (x : Column) : x.mix =
    ⟨double (x.a ^^^ x.b) ^^^ (x.a ^^^ x.total), double (x.b ^^^ x.c) ^^^ (x.b ^^^ x.total),
     double (x.c ^^^ x.d) ^^^ (x.c ^^^ x.total), double (x.d ^^^ x.a) ^^^ (x.d ^^^ x.total)⟩ := by
  simp only [mix, total, double_xor, mk.injEq]
  refine ⟨?_, ?_, ?_, ?_⟩ <;>
    simp only [UInt8.xor_assoc, UInt8.xor_comm, xor_left_comm, xor_cancel_left,
      UInt8.xor_self, UInt8.xor_zero]

theorem total_mix (x : Column) : x.mix.total = x.total := by
  simp only [mix_eq, total, double_xor]
  simp only [UInt8.xor_assoc, UInt8.xor_comm, xor_left_comm, xor_cancel_left,
      UInt8.xor_self, UInt8.xor_zero]

/-- Mixing twice adds to two octets that lie opposite the same multiple of their sum. -/
theorem mix_mix (x : Column) : x.mix.mix =
    ⟨double (double (x.a ^^^ x.c)) ^^^ x.a, double (double (x.b ^^^ x.d)) ^^^ x.b,
     double (double (x.a ^^^ x.c)) ^^^ x.c, double (double (x.b ^^^ x.d)) ^^^ x.d⟩ := by
  rw [mix_eq x.mix, total_mix]
  simp only [mix_eq x, double_xor, mk.injEq]
  refine ⟨?_, ?_, ?_, ?_⟩ <;>
    simp only [UInt8.xor_assoc, UInt8.xor_comm, xor_left_comm, xor_cancel_left,
      UInt8.xor_self]

theorem mix_mix_mix_mix (x : Column) : x.mix.mix.mix.mix = x := by
  have hac : ∀ m : UInt8, m ^^^ x.a ^^^ (m ^^^ x.c) = x.a ^^^ x.c := by
    intro m
    rw [UInt8.xor_comm m x.a, UInt8.xor_assoc, xor_cancel_left]
  have hbd : ∀ m : UInt8, m ^^^ x.b ^^^ (m ^^^ x.d) = x.b ^^^ x.d := by
    intro m
    rw [UInt8.xor_comm m x.b, UInt8.xor_assoc, xor_cancel_left]
  rw [mix_mix x.mix.mix, mix_mix x]
  simp only [hac, hbd, xor_cancel_left]

theorem unmix_mix (x : Column) : x.mix.unmix = x := mix_mix_mix_mix x

theorem mix_unmix (x : Column) : x.unmix.mix = x := mix_mix_mix_mix x

@[simp] theorem xor_xor_cancel (x y : Column) : (x.xor y).xor y = x := by
  simp [xor]

end Column

/-! ## Rounds -/

namespace Block

@[simp] theorem add_add_cancel (s k : Block) : (s.add k).add k = s := by
  simp [add]

theorem map_unmix_map_mix (s : Block) : (s.map Column.mix).map Column.unmix = s := by
  simp [map, Column.unmix_mix]

theorem map_mix_map_unmix (s : Block) : (s.map Column.unmix).map Column.mix = s := by
  simp [map, Column.mix_unmix]

theorem unscramble_scramble (s : Block) : s.scramble.unscramble = s := by
  simp [scramble, unscramble, shiftRows, unshiftRows, map, Column.map, unsubstitute_substitute]

theorem scramble_unscramble (s : Block) : s.unscramble.scramble = s := by
  simp [scramble, unscramble, shiftRows, unshiftRows, map, Column.map, substitute_unsubstitute]

end Block

theorem decryptRounds_encryptRounds (keys : List Block) (s : Block) :
    decryptRounds keys (encryptRounds keys s) = s := by
  induction keys generalizing s with
  | nil => rfl
  | cons k keys ih =>
    -- The last round has no mixing, so the recursion ends at a single key.
    cases keys with
    | nil =>
      change ((s.scramble.add k).add k).unscramble = s
      rw [Block.add_add_cancel, Block.unscramble_scramble]
    | cons next keys =>
      -- Decryption runs through the later rounds first and meets the result of this one there.
      have hrest := ih ((s.scramble.map Column.mix).add k)
      change (((decryptRounds (next :: keys) (encryptRounds (next :: keys)
        ((s.scramble.map Column.mix).add k))).add k).map Column.unmix).unscramble = s
      rw [hrest, Block.add_add_cancel, Block.map_unmix_map_mix, Block.unscramble_scramble]

theorem encryptRounds_decryptRounds (keys : List Block) (s : Block) :
    encryptRounds keys (decryptRounds keys s) = s := by
  induction keys generalizing s with
  | nil => rfl
  | cons k keys ih =>
    cases keys with
    | nil =>
      change ((s.add k).unscramble.scramble).add k = s
      rw [Block.scramble_unscramble, Block.add_add_cancel]
    | cons next keys =>
      have hrest := ih s
      change encryptRounds (next :: keys) (((((decryptRounds (next :: keys) s).add k).map
        Column.unmix).unscramble.scramble.map Column.mix).add k) = s
      rw [Block.scramble_unscramble, Block.map_mix_map_unmix, Block.add_add_cancel, hrest]

/-- Decryption undoes encryption. -/
theorem decrypt_encrypt (keys : List Block) (s : Block) : decrypt keys (encrypt keys s) = s := by
  cases keys with
  | nil => rfl
  | cons k keys => rw [encrypt, decrypt, decryptRounds_encryptRounds, Block.add_add_cancel]

/-- Encryption undoes decryption, so every block is the encryption of some block. -/
theorem encrypt_decrypt (keys : List Block) (s : Block) : encrypt keys (decrypt keys s) = s := by
  cases keys with
  | nil => rfl
  | cons k keys => rw [decrypt, encrypt, Block.add_add_cancel, encryptRounds_decryptRounds]

end KeyCustody.Aes
