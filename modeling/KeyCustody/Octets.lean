/-!
# Octet strings

Keys, signatures, documents and messages are all finite sequences of octets. This file
fixes their representation as lists, so that every codec is a recursion on the data, and
gives the big-endian reading of an octet string as a natural number, which is how the
integers of a key travel.

## Main definitions

* `Octets` — a finite sequence of octets
* `Octets.toNat`, `Octets.ofNat`, `Octets.ofNatWidth` — big-endian value, its shortest
  form, and its form of a fixed width
* `Octets.ofText`, `Octets.toText?` — the UTF-8 form of a text, and its partial inverse
* `Octets.xor` — octet-wise exclusive or
* `Octets.occursIn` — whether one octet string stands in another
* `Entropy` — a source of random octets
-/

namespace KeyCustody

/-- A finite sequence of octets. -/
abbrev Octets := List UInt8

/-- A source of random octets: as many as are asked for. -/
abbrev Entropy := Nat → Octets

namespace Octets

/-- The number that an octet string spells in base 256, the first octet being the most
significant. -/
def toNat (b : Octets) : Nat :=
  b.foldl (fun n x => n * 256 + x.toNat) 0

/-- The last `k` base 256 digits of a number, most significant first: always `k` octets. -/
def ofNatWidth : Nat → Nat → Octets
  | 0, _ => []
  | k + 1, n => ofNatWidth k (n / 256) ++ [UInt8.ofNat n]

/-- The shortest octet string that spells a number; zero is the empty string. -/
def ofNat (n : Nat) : Octets :=
  if n = 0 then [] else ofNat (n / 256) ++ [UInt8.ofNat n]
termination_by n
decreasing_by omega

/-- How many octets the shortest spelling of a number takes. -/
def byteLength (n : Nat) : Nat :=
  if n = 0 then 0 else n.log2 / 8 + 1

/-- How many binary digits a number takes. -/
def bitLength (n : Nat) : Nat :=
  if n = 0 then 0 else n.log2 + 1

/-- Octet-wise exclusive or, as long as the shorter operand. -/
def xor (a b : Octets) : Octets :=
  List.zipWith (· ^^^ ·) a b

/-- The UTF-8 form of a text. -/
def ofText (s : String) : Octets :=
  s.toByteArray.data.toList

/-- The text whose UTF-8 form is given, if there is one. -/
def toText? (b : Octets) : Option String :=
  String.fromUTF8? ⟨b.toArray⟩

/-- Whether an octet string stands somewhere in another. -/
def occursIn (part : Octets) : Octets → Bool
  | [] => part.isEmpty
  | x :: rest => part.isPrefixOf (x :: rest) || occursIn part rest

@[simp] theorem length_ofNatWidth (k n : Nat) : (ofNatWidth k n).length = k := by
  induction k generalizing n with
  | zero => rfl
  | succ k ih => simp [ofNatWidth, ih]

@[simp] theorem length_xor (a b : Octets) : (xor a b).length = min a.length b.length := by
  simp [xor]

theorem toNat_nil : toNat [] = 0 := rfl

/-- A further octet shifts the value by one digit. -/
theorem toNat_concat (b : Octets) (x : UInt8) :
    toNat (b ++ [x]) = toNat b * 256 + x.toNat := by
  simp [toNat]

end Octets

end KeyCustody
