import KeyCustody.Cipher.Aes

/-!
# Key wrapping with padding

Key material is encrypted and authenticated under a key-encryption key by AES alone. The
material is filled with zero octets to whole semiblocks of eight octets and preceded by a
check value that holds a fixed mark and the true length. A single semiblock is encrypted
together with its check value as one block; more of them go through six passes, in which every
semiblock is encrypted with the running check value, and a step counter is mixed in.

Unwrapping runs the passes backwards and then accepts only what wrapping produces: the mark,
a length that ends in the last semiblock, and zero fill.

## Main definitions

* `KeyWrap.Semiblock` — eight octets
* `KeyWrap.lock`, `KeyWrap.unlock` — the six passes and their inverse
* `KeyWrap.wrap`, `KeyWrap.unwrap` — wrapping of octet strings, and its partial inverse
* `KeyWrap.wrappedLength` — the length of wrapped material
-/

namespace KeyCustody.KeyWrap

open Aes

/-- Why wrapping or unwrapping is refused. -/
inductive Fault
  /-- The data is too long to wrap, or no whole number of semiblocks to unwrap. -/
  | dataLength
  /-- The check value or the fill of unwrapped data is not what wrapping produces. -/
  | integrity
  /-- There is nothing to wrap. -/
  | emptyMaterial
deriving DecidableEq, Repr

/-- Eight octets, half a cipher block. -/
structure Semiblock where
  high : Column
  low : Column
deriving DecidableEq, Repr

namespace Semiblock

/-- The octets of a semiblock. -/
def octets (x : Semiblock) : Octets := x.high.octets ++ x.low.octets

/-- The semiblock that eight octets fill; missing octets are zero. -/
def ofOctets (b : Octets) : Semiblock :=
  ⟨Column.ofOctets (b.take 4), Column.ofOctets (b.drop 4)⟩

/-- Mixes a step counter into a semiblock, as a big-endian number. -/
def mixStep (x : Semiblock) (step : Nat) : Semiblock :=
  let t := ofOctets (Octets.ofNatWidth 8 step)
  ⟨x.high.xor t.high, x.low.xor t.low⟩

/-- The cipher block of two semiblocks. -/
def pair (x y : Semiblock) : Block := ⟨x.high, x.low, y.high, y.low⟩

end Semiblock

/-- The first half of a cipher block. -/
def leading (s : Block) : Semiblock := ⟨s.first, s.second⟩

/-- The second half of a cipher block. -/
def trailing (s : Block) : Semiblock := ⟨s.third, s.fourth⟩

/-- The check value and the semiblocks it runs over. -/
abbrev Locked := Semiblock × List Semiblock

/-! ## Passes -/

/-- One pass from left to right; `done` holds the finished semiblocks in reverse. -/
def lockPass (keys : List Block) (check : Semiblock) (step : Nat) (done : List Semiblock) :
    List Semiblock → Locked
  | [] => (check, done.reverse)
  | r :: rest =>
    let s := encrypt keys (check.pair r)
    lockPass keys ((leading s).mixStep step) (step + 1) (trailing s :: done) rest

/-- One pass from right to left over semiblocks given in reverse; `done` holds the finished
semiblocks in order. -/
def unlockPass (keys : List Block) (check : Semiblock) (step : Nat) (done : List Semiblock) :
    List Semiblock → Locked
  | [] => (check, done)
  | r :: rest =>
    let s := decrypt keys ((check.mixStep step).pair r)
    unlockPass keys (leading s) (step - 1) (trailing s :: done) rest

/-- Runs `n` further passes, the next beginning with the given step. -/
def lockPasses (keys : List Block) : Nat → Nat → Locked → Locked
  | 0, _, x => x
  | n + 1, step, (check, rs) =>
    lockPasses keys n (step + rs.length) (lockPass keys check step [] rs)

/-- Undoes `lockPasses`: the last of the `n` passes first. -/
def unlockPasses (keys : List Block) : Nat → Nat → Locked → Locked
  | 0, _, x => x
  | n + 1, step, x =>
    let (check, rs) := unlockPasses keys n (step + x.2.length) x
    unlockPass keys check (step + rs.length - 1) [] rs.reverse

/-- Encrypts semiblocks with their check value. -/
def lock (keys : List Block) : Locked → Locked
  | (check, [r]) =>
    let s := encrypt keys (check.pair r)
    (leading s, [trailing s])
  | x => lockPasses keys 6 1 x

/-- Decrypts semiblocks and their check value. -/
def unlock (keys : List Block) : Locked → Locked
  | (check, [r]) =>
    let s := decrypt keys (check.pair r)
    (leading s, [trailing s])
  | x => unlockPasses keys 6 1 x

/-! ## Wrapping octet strings -/

/-- The semiblocks of an octet string, the last filled up with zeros. -/
def semiblocksFrom (done : List Semiblock) (b : Octets) : List Semiblock :=
  match b with
  | [] => done.reverse
  | x :: rest =>
    semiblocksFrom (Semiblock.ofOctets ((x :: rest).take 8) :: done) (rest.drop 7)
termination_by b.length
decreasing_by
  simp only [List.length_drop, List.length_cons]
  omega

/-- The semiblocks of an octet string, the last filled up with zeros. -/
def semiblocks (b : Octets) : List Semiblock := semiblocksFrom [] b

/-- The octets of semiblocks. -/
def octets (rs : List Semiblock) : Octets := rs.flatMap Semiblock.octets

/-- The mark in the first half of a check value. -/
def mark : Column := ⟨0xa6, 0x59, 0x59, 0xa6⟩

/-- The check value of material of a given length. -/
def checkValue (length : Nat) : Semiblock :=
  ⟨mark, Column.ofOctets (Octets.ofNatWidth 4 length)⟩

/-- The length of wrapped material: one semiblock more than the material fills. -/
def wrappedLength (length : Nat) : Nat :=
  8 + (length + 7) / 8 * 8

/-- Wraps key material under a 32-octet key. -/
def wrap (kek material : Octets) : Except Fault Octets :=
  if material = [] then .error .emptyMaterial
  else if material.length < 0x100000000 then
    let (check, rs) := lock (roundKeys kek) (checkValue material.length, semiblocks material)
    .ok (check.octets ++ octets rs)
  else .error .dataLength

/-- Cuts unwrapped semiblocks to the length in their check value, if the check value and the
fill are as wrapping produces them. -/
def material (check : Semiblock) (rs : List Semiblock) : Except Fault Octets :=
  let length := Octets.toNat check.low.octets
  let padded := octets rs
  if check.high = mark ∧ length ≤ padded.length ∧ padded.length < length + 8 ∧
      (padded.drop length).all (· == 0) ∧ rs ≠ [] then
    .ok (padded.take length)
  else .error .integrity

/-- Recovers key material wrapped under a 32-octet key. -/
def unwrap (kek wrapped : Octets) : Except Fault Octets :=
  if wrapped.length % 8 = 0 then
    match semiblocks wrapped with
    | [] => .error .dataLength
    | check :: rs =>
      let (check, rs) := unlock (roundKeys kek) (check, rs)
      material check rs
  else .error .dataLength

end KeyCustody.KeyWrap
