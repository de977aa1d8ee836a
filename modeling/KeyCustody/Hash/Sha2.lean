import KeyCustody.Hash.Block

/-!
# The SHA-2 family

The members of the family run one algorithm over words of different widths. A member is
described by its constants, its four rotation functions and the octet form of its words; the
rounds, the message schedule and the chaining are common.

## Main definitions

* `Sha2.State` — the chaining state, eight words
* `Sha2.Member` — what distinguishes one member of the family
* `Sha2.Member.compress`, `Sha2.Member.hash` — one block mixed in, and the digest of a message
-/

namespace KeyCustody.Sha2

/-- The chaining state. -/
structure State (W : Type) where
  a : W
  b : W
  c : W
  d : W
  e : W
  f : W
  g : W
  h : W
deriving DecidableEq, Repr

/-- What distinguishes one member of the family. -/
structure Member (W : Type) where
  /-- Octets in a word. -/
  width : Nat
  /-- One constant for every round. -/
  constants : List W
  /-- The state before the first block. -/
  initial : State W
  /-- Mixes the first word of the state. -/
  upperA : W → W
  /-- Mixes the fifth word of the state. -/
  upperE : W → W
  /-- Mixes the schedule word fifteen places back. -/
  lowerOld : W → W
  /-- Mixes the schedule word two places back. -/
  lowerNew : W → W
  /-- The word that octets spell. -/
  ofNat : Nat → W
  /-- The number that a word stands for. -/
  toNat : W → Nat

variable {W : Type} [Add W] [XorOp W] [AndOp W] [Complement W]

namespace Member

/-- Octets in a block: sixteen words. -/
def block (m : Member W) : Nat := 16 * m.width

/-- The first `n` words of a block. -/
def words (m : Member W) : Nat → Octets → List W
  | 0, _ => []
  | n + 1, b => m.ofNat (Octets.toNat (b.take m.width)) :: m.words n (b.drop m.width)

/-- Extends the schedule, kept newest word first, by `n` words. -/
def extend (m : Member W) : Nat → List W → List W
  | 0, w => w
  | n + 1, w =>
    let back (i : Nat) : W := w.getD i (m.ofNat 0)
    m.extend n ((back 15 + m.lowerOld (back 14) + back 6 + m.lowerNew (back 1)) :: w)

/-- One round, with the sum of its constant and its schedule word. -/
def round (m : Member W) (s : State W) (kw : W) : State W :=
  let choice := (s.e &&& s.f) ^^^ (~~~ s.e &&& s.g)
  let majority := (s.a &&& s.b) ^^^ (s.a &&& s.c) ^^^ (s.b &&& s.c)
  let t := s.h + m.upperE s.e + choice + kw
  ⟨t + (m.upperA s.a + majority), s.a, s.b, s.c, s.d + t, s.e, s.f, s.g⟩

/-- Mixes one block into the state. -/
def compress (m : Member W) (s : State W) (block : Octets) : State W :=
  let schedule := (m.extend (m.constants.length - 16) (m.words 16 block).reverse).reverse
  let t := (List.zipWith (· + ·) m.constants schedule).foldl m.round s
  ⟨s.a + t.a, s.b + t.b, s.c + t.c, s.d + t.d, s.e + t.e, s.f + t.f, s.g + t.g, s.h + t.h⟩

/-- The octets of a state, its words in order. -/
def octets (m : Member W) (s : State W) : Octets :=
  [s.a, s.b, s.c, s.d, s.e, s.f, s.g, s.h].flatMap fun w => Octets.ofNatWidth m.width (m.toNat w)

/-- The digest of a message: eight words. The length field of the closing takes two words. -/
def hash (m : Member W) (message : Octets) : Octets :=
  m.octets (Hash.absorb m.block m.compress m.initial (Hash.pad m.block (2 * m.width) message))

theorem length_hash (m : Member W) (message : Octets) :
    (m.hash message).length = 8 * m.width := by
  simp [hash, octets]
  omega

end Member

end KeyCustody.Sha2
