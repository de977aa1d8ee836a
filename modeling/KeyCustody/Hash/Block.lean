import KeyCustody.Octets

/-!
# Block hashing

The hash functions of this library share one frame: the message is closed by a one bit, zero
bits and its length, so that whole blocks result, and the blocks are absorbed from left to
right.

## Main definitions

* `Hash.pad` — the message followed by its closing
* `Hash.absorb` — a state carried over the blocks
-/

namespace KeyCustody.Hash

/-- How many zero octets stand between the closing one bit and the length. -/
def zeroCount (block width length : Nat) : Nat :=
  (block - (length + 1 + width) % block) % block

/-- Closes a message: the octet `80`, as few zeros as fill the last block, and the number of
bits in `width` octets. -/
def pad (block width : Nat) (message : Octets) : Octets :=
  message ++ (0x80 :: List.replicate (zeroCount block width message.length) 0) ++
    Octets.ofNatWidth width (message.length * 8)

/-- Carries a state over the blocks of an octet string. -/
def absorb {σ : Type} (block : Nat) (compress : σ → Octets → σ) (s : σ) (b : Octets) : σ :=
  match b with
  | [] => s
  | x :: rest =>
    absorb block compress (compress s ((x :: rest).take block)) (rest.drop (block - 1))
termination_by b.length
decreasing_by
  simp only [List.length_drop, List.length_cons]
  omega

end KeyCustody.Hash
