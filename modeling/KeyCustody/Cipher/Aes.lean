import KeyCustody.Octets

/-!
# AES with 256-bit keys

The block cipher works on sixteen octets, seen as four columns of four. Encryption is fourteen
rounds of octet substitution, row rotation, column mixing and key addition; decryption undoes
them in the opposite order. Both recursions run over the same list of round keys, so that each
step of the one faces its inverse in the other.

## Main definitions

* `Aes.Column`, `Aes.Block` — the state
* `Aes.roundKeys` — the fifteen round keys of a 32-octet key
* `Aes.encrypt`, `Aes.decrypt` — the cipher and its inverse under given round keys
-/

namespace KeyCustody.Aes

/-- Four octets of the state, from the top row down. -/
structure Column where
  a : UInt8
  b : UInt8
  c : UInt8
  d : UInt8
deriving DecidableEq, Repr

/-- The sixteen octets of the state, column after column. -/
structure Block where
  first : Column
  second : Column
  third : Column
  fourth : Column
deriving DecidableEq, Repr

namespace Column

/-- The column that four octets fill; missing octets are zero. -/
def ofOctets (b : Octets) : Column :=
  ⟨b.getD 0 0, b.getD 1 0, b.getD 2 0, b.getD 3 0⟩

/-- The octets of a column. -/
def octets (x : Column) : Octets := [x.a, x.b, x.c, x.d]

/-- Octet-wise exclusive or. -/
def xor (x y : Column) : Column :=
  ⟨x.a ^^^ y.a, x.b ^^^ y.b, x.c ^^^ y.c, x.d ^^^ y.d⟩

/-- Applies a function to each octet. -/
def map (f : UInt8 → UInt8) (x : Column) : Column :=
  ⟨f x.a, f x.b, f x.c, f x.d⟩

/-- The column rotated up by one row. -/
def rotate (x : Column) : Column := ⟨x.b, x.c, x.d, x.a⟩

end Column

/-! ## Substitution -/

/-- The substitution table: inversion in the field of 256 elements and an affine map. -/
def substitutionTable : Array UInt8 := #[
  0x63, 0x7c, 0x77, 0x7b, 0xf2, 0x6b, 0x6f, 0xc5, 0x30, 0x01, 0x67, 0x2b, 0xfe, 0xd7, 0xab, 0x76,
  0xca, 0x82, 0xc9, 0x7d, 0xfa, 0x59, 0x47, 0xf0, 0xad, 0xd4, 0xa2, 0xaf, 0x9c, 0xa4, 0x72, 0xc0,
  0xb7, 0xfd, 0x93, 0x26, 0x36, 0x3f, 0xf7, 0xcc, 0x34, 0xa5, 0xe5, 0xf1, 0x71, 0xd8, 0x31, 0x15,
  0x04, 0xc7, 0x23, 0xc3, 0x18, 0x96, 0x05, 0x9a, 0x07, 0x12, 0x80, 0xe2, 0xeb, 0x27, 0xb2, 0x75,
  0x09, 0x83, 0x2c, 0x1a, 0x1b, 0x6e, 0x5a, 0xa0, 0x52, 0x3b, 0xd6, 0xb3, 0x29, 0xe3, 0x2f, 0x84,
  0x53, 0xd1, 0x00, 0xed, 0x20, 0xfc, 0xb1, 0x5b, 0x6a, 0xcb, 0xbe, 0x39, 0x4a, 0x4c, 0x58, 0xcf,
  0xd0, 0xef, 0xaa, 0xfb, 0x43, 0x4d, 0x33, 0x85, 0x45, 0xf9, 0x02, 0x7f, 0x50, 0x3c, 0x9f, 0xa8,
  0x51, 0xa3, 0x40, 0x8f, 0x92, 0x9d, 0x38, 0xf5, 0xbc, 0xb6, 0xda, 0x21, 0x10, 0xff, 0xf3, 0xd2,
  0xcd, 0x0c, 0x13, 0xec, 0x5f, 0x97, 0x44, 0x17, 0xc4, 0xa7, 0x7e, 0x3d, 0x64, 0x5d, 0x19, 0x73,
  0x60, 0x81, 0x4f, 0xdc, 0x22, 0x2a, 0x90, 0x88, 0x46, 0xee, 0xb8, 0x14, 0xde, 0x5e, 0x0b, 0xdb,
  0xe0, 0x32, 0x3a, 0x0a, 0x49, 0x06, 0x24, 0x5c, 0xc2, 0xd3, 0xac, 0x62, 0x91, 0x95, 0xe4, 0x79,
  0xe7, 0xc8, 0x37, 0x6d, 0x8d, 0xd5, 0x4e, 0xa9, 0x6c, 0x56, 0xf4, 0xea, 0x65, 0x7a, 0xae, 0x08,
  0xba, 0x78, 0x25, 0x2e, 0x1c, 0xa6, 0xb4, 0xc6, 0xe8, 0xdd, 0x74, 0x1f, 0x4b, 0xbd, 0x8b, 0x8a,
  0x70, 0x3e, 0xb5, 0x66, 0x48, 0x03, 0xf6, 0x0e, 0x61, 0x35, 0x57, 0xb9, 0x86, 0xc1, 0x1d, 0x9e,
  0xe1, 0xf8, 0x98, 0x11, 0x69, 0xd9, 0x8e, 0x94, 0x9b, 0x1e, 0x87, 0xe9, 0xce, 0x55, 0x28, 0xdf,
  0x8c, 0xa1, 0x89, 0x0d, 0xbf, 0xe6, 0x42, 0x68, 0x41, 0x99, 0x2d, 0x0f, 0xb0, 0x54, 0xbb, 0x16]

/-- The inverse of the substitution table. -/
def inverseTable : Array UInt8 := #[
  0x52, 0x09, 0x6a, 0xd5, 0x30, 0x36, 0xa5, 0x38, 0xbf, 0x40, 0xa3, 0x9e, 0x81, 0xf3, 0xd7, 0xfb,
  0x7c, 0xe3, 0x39, 0x82, 0x9b, 0x2f, 0xff, 0x87, 0x34, 0x8e, 0x43, 0x44, 0xc4, 0xde, 0xe9, 0xcb,
  0x54, 0x7b, 0x94, 0x32, 0xa6, 0xc2, 0x23, 0x3d, 0xee, 0x4c, 0x95, 0x0b, 0x42, 0xfa, 0xc3, 0x4e,
  0x08, 0x2e, 0xa1, 0x66, 0x28, 0xd9, 0x24, 0xb2, 0x76, 0x5b, 0xa2, 0x49, 0x6d, 0x8b, 0xd1, 0x25,
  0x72, 0xf8, 0xf6, 0x64, 0x86, 0x68, 0x98, 0x16, 0xd4, 0xa4, 0x5c, 0xcc, 0x5d, 0x65, 0xb6, 0x92,
  0x6c, 0x70, 0x48, 0x50, 0xfd, 0xed, 0xb9, 0xda, 0x5e, 0x15, 0x46, 0x57, 0xa7, 0x8d, 0x9d, 0x84,
  0x90, 0xd8, 0xab, 0x00, 0x8c, 0xbc, 0xd3, 0x0a, 0xf7, 0xe4, 0x58, 0x05, 0xb8, 0xb3, 0x45, 0x06,
  0xd0, 0x2c, 0x1e, 0x8f, 0xca, 0x3f, 0x0f, 0x02, 0xc1, 0xaf, 0xbd, 0x03, 0x01, 0x13, 0x8a, 0x6b,
  0x3a, 0x91, 0x11, 0x41, 0x4f, 0x67, 0xdc, 0xea, 0x97, 0xf2, 0xcf, 0xce, 0xf0, 0xb4, 0xe6, 0x73,
  0x96, 0xac, 0x74, 0x22, 0xe7, 0xad, 0x35, 0x85, 0xe2, 0xf9, 0x37, 0xe8, 0x1c, 0x75, 0xdf, 0x6e,
  0x47, 0xf1, 0x1a, 0x71, 0x1d, 0x29, 0xc5, 0x89, 0x6f, 0xb7, 0x62, 0x0e, 0xaa, 0x18, 0xbe, 0x1b,
  0xfc, 0x56, 0x3e, 0x4b, 0xc6, 0xd2, 0x79, 0x20, 0x9a, 0xdb, 0xc0, 0xfe, 0x78, 0xcd, 0x5a, 0xf4,
  0x1f, 0xdd, 0xa8, 0x33, 0x88, 0x07, 0xc7, 0x31, 0xb1, 0x12, 0x10, 0x59, 0x27, 0x80, 0xec, 0x5f,
  0x60, 0x51, 0x7f, 0xa9, 0x19, 0xb5, 0x4a, 0x0d, 0x2d, 0xe5, 0x7a, 0x9f, 0x93, 0xc9, 0x9c, 0xef,
  0xa0, 0xe0, 0x3b, 0x4d, 0xae, 0x2a, 0xf5, 0xb0, 0xc8, 0xeb, 0xbb, 0x3c, 0x83, 0x53, 0x99, 0x61,
  0x17, 0x2b, 0x04, 0x7e, 0xba, 0x77, 0xd6, 0x26, 0xe1, 0x69, 0x14, 0x63, 0x55, 0x21, 0x0c, 0x7d]

/-- Replaces an octet by its entry in the substitution table. -/
def substitute (x : UInt8) : UInt8 := substitutionTable.getD x.toNat 0

/-- Replaces an octet by its entry in the inverse table. -/
def unsubstitute (x : UInt8) : UInt8 := inverseTable.getD x.toNat 0

/-! ## The four steps of a round -/

/-- Doubling in the field of 256 elements. -/
def double (x : UInt8) : UInt8 :=
  (x <<< 1) ^^^ (if x < 0x80 then 0 else 0x1b)

/-- Mixes the octets of a column: the product with the polynomial of coefficients 2, 1, 1, 3. -/
def Column.mix (x : Column) : Column :=
  ⟨double x.a ^^^ (double x.b ^^^ x.b) ^^^ x.c ^^^ x.d,
   x.a ^^^ double x.b ^^^ (double x.c ^^^ x.c) ^^^ x.d,
   x.a ^^^ x.b ^^^ double x.c ^^^ (double x.d ^^^ x.d),
   (double x.a ^^^ x.a) ^^^ x.b ^^^ x.c ^^^ double x.d⟩

/-- Four mixings change nothing, so three more undo one. -/
def Column.unmix (x : Column) : Column := x.mix.mix.mix

namespace Block

/-- Applies a function to each column. -/
def map (f : Column → Column) (s : Block) : Block :=
  ⟨f s.first, f s.second, f s.third, f s.fourth⟩

/-- Octet-wise exclusive or with a round key. -/
def add (s k : Block) : Block :=
  ⟨s.first.xor k.first, s.second.xor k.second, s.third.xor k.third, s.fourth.xor k.fourth⟩

/-- Rotates row number `i` to the left by `i` places. -/
def shiftRows (s : Block) : Block :=
  ⟨⟨s.first.a, s.second.b, s.third.c, s.fourth.d⟩,
   ⟨s.second.a, s.third.b, s.fourth.c, s.first.d⟩,
   ⟨s.third.a, s.fourth.b, s.first.c, s.second.d⟩,
   ⟨s.fourth.a, s.first.b, s.second.c, s.third.d⟩⟩

/-- Rotates row number `i` to the right by `i` places. -/
def unshiftRows (s : Block) : Block :=
  ⟨⟨s.first.a, s.fourth.b, s.third.c, s.second.d⟩,
   ⟨s.second.a, s.first.b, s.fourth.c, s.third.d⟩,
   ⟨s.third.a, s.second.b, s.first.c, s.fourth.d⟩,
   ⟨s.fourth.a, s.third.b, s.second.c, s.first.d⟩⟩

/-- Substitution of every octet, then rotation of the rows. -/
def scramble (s : Block) : Block :=
  (s.map (Column.map substitute)).shiftRows

/-- Undoes `scramble`. -/
def unscramble (s : Block) : Block :=
  s.unshiftRows.map (Column.map unsubstitute)

end Block

/-! ## The cipher -/

/-- All rounds after the first key addition. The last round does not mix. -/
def encryptRounds : List Block → Block → Block
  | [], s => s
  | [last], s => s.scramble.add last
  | k :: keys, s => encryptRounds keys ((s.scramble.map Column.mix).add k)

/-- Undoes `encryptRounds`. -/
def decryptRounds : List Block → Block → Block
  | [], s => s
  | [last], s => (s.add last).unscramble
  | k :: keys, s => (((decryptRounds keys s).add k).map Column.unmix).unscramble

/-- Encrypts a block under round keys. -/
def encrypt : List Block → Block → Block
  | [], s => s
  | k :: keys, s => encryptRounds keys (s.add k)

/-- Decrypts a block under round keys. -/
def decrypt : List Block → Block → Block
  | [], s => s
  | k :: keys, s => (decryptRounds keys s).add k

/-! ## The key schedule -/

/-- One more column of the schedule, from the column before it. Every eighth column is rotated,
substituted and marked with a constant, and the one half-way between is substituted. -/
def nextColumn (index : Nat) (constant : UInt8) (back previous : Column) : Column :=
  if index % 8 = 0 then
    let x := previous.rotate.map substitute
    back.xor (x.xor ⟨constant, 0, 0, 0⟩)
  else if index % 8 = 4 then back.xor (previous.map substitute)
  else back.xor previous

/-- Extends the schedule, kept newest column first, by `n` columns, the next having number
`index`. -/
def extendKey : Nat → Nat → UInt8 → List Column → List Column
  | 0, _, _, w => w
  | n + 1, index, constant, w =>
    let zero : Column := ⟨0, 0, 0, 0⟩
    let x := nextColumn index constant (w.getD 7 zero) (w.getD 0 zero)
    extendKey n (index + 1) (if index % 8 = 0 then double constant else constant) (x :: w)

/-- The columns of an octet string, `n` in number. -/
def columns : Nat → Octets → List Column
  | 0, _ => []
  | n + 1, b => Column.ofOctets (b.take 4) :: columns n (b.drop 4)

/-- Groups columns into blocks. -/
def blocks : List Column → List Block
  | w :: x :: y :: z :: rest => ⟨w, x, y, z⟩ :: blocks rest
  | _ => []

/-- The fifteen round keys of a 32-octet key. -/
def roundKeys (key : Octets) : List Block :=
  blocks (extendKey 52 8 1 (columns 8 key).reverse).reverse

end KeyCustody.Aes
