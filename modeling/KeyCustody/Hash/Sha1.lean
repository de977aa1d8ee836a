import KeyCustody.Hash.Block

/-!
# SHA-1

An 80-round block hash with a state of five 32-bit words. It serves here only as the mask
and label hash of the wrapping of ephemeral keys, where its collisions do no harm.

## Main definitions

* `Sha1.State`, `Sha1.compress` — the chaining state, and one block mixed into it
* `Sha1.hash` — the digest of a message
-/

namespace KeyCustody.Sha1

/-- The chaining state. -/
structure State where
  a : UInt32
  b : UInt32
  c : UInt32
  d : UInt32
  e : UInt32
deriving DecidableEq, Repr

/-- The state before the first block. -/
def State.initial : State :=
  ⟨0x67452301, 0xefcdab89, 0x98badcfe, 0x10325476, 0xc3d2e1f0⟩

/-- Rotation to the left. -/
def rotate (x : UInt32) (n : UInt32) : UInt32 :=
  (x <<< n) ||| (x >>> (32 - n))

/-- The words of a block, four octets to a word. -/
def words (block : Octets) : List UInt32 :=
  match block with
  | x0 :: x1 :: x2 :: x3 :: rest =>
    ((x0.toUInt32 <<< 24) ||| (x1.toUInt32 <<< 16) ||| (x2.toUInt32 <<< 8) ||| x3.toUInt32) ::
      words rest
  | _ => []

/-- Extends the schedule, kept newest word first, by `n` words. -/
def extend : Nat → List UInt32 → List UInt32
  | 0, w => w
  | n + 1, w =>
    extend n (rotate (w.getD 2 0 ^^^ w.getD 7 0 ^^^ w.getD 13 0 ^^^ w.getD 15 0) 1 :: w)

/-- Twenty rounds with one mixing function and one constant. -/
def stage (mix : UInt32 → UInt32 → UInt32 → UInt32) (constant : UInt32) (schedule : List UInt32)
    (s : State) : State :=
  schedule.foldl
    (fun s w => ⟨rotate s.a 5 + mix s.b s.c s.d + s.e + constant + w, s.a, rotate s.b 30, s.c, s.d⟩)
    s

/-- Each bit of the second operand where the first has a one, of the third elsewhere. -/
def choice (x y z : UInt32) : UInt32 := (x &&& y) ||| (~~~ x &&& z)

/-- The sum of the operands without carries. -/
def parity (x y z : UInt32) : UInt32 := x ^^^ y ^^^ z

/-- Each bit that at least two operands have. -/
def majority (x y z : UInt32) : UInt32 := (x &&& y) ||| (x &&& z) ||| (y &&& z)

/-- Mixes one block into the state. -/
def compress (s : State) (block : Octets) : State :=
  let schedule := (extend 64 (words block).reverse).reverse
  let t :=
    stage parity 0xca62c1d6 (schedule.drop 60)
      (stage majority 0x8f1bbcdc ((schedule.drop 40).take 20)
        (stage parity 0x6ed9eba1 ((schedule.drop 20).take 20)
          (stage choice 0x5a827999 (schedule.take 20) s)))
  ⟨s.a + t.a, s.b + t.b, s.c + t.c, s.d + t.d, s.e + t.e⟩

/-- The octets of the state. -/
def State.octets (s : State) : Octets :=
  [s.a, s.b, s.c, s.d, s.e].flatMap fun w => Octets.ofNatWidth 4 w.toNat

/-- The digest of a message: always 20 octets. -/
def hash (message : Octets) : Octets :=
  (Hash.absorb 64 compress State.initial (Hash.pad 64 8 message)).octets

@[simp] theorem length_hash (message : Octets) : (hash message).length = 20 := by
  simp [hash, State.octets]

end KeyCustody.Sha1
